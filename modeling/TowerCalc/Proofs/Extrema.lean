import TowerCalc.Proofs.Conversion
import TowerCalc.Proofs.ExactResults
import TowerCalc.Proofs.Failures

/-!
# Maximum and minimum

The larger of two numbers is the second one if that is above the first, and else the first;
the smaller one is found the same way. Comparison of extended reals orders all of them but
`nan`, which is beyond nothing: so the first operand wins where either is `nan`, and the
order of operands can matter there. It does not matter elsewhere, as far as conversion keeps
the order of exact numbers that meet a real.

## Results

* `Ranks`, `pick_comm_iff`, `pick_assoc_iff`: picking the first of two unless the second is
  beyond it.
* `Extremum.ofNumbers`, `Extremum.call_eq`: what a call picks.
* `Number.InOrder`: conversion keeps the order of two exact numbers; `inOrder_integers`,
  `ConvertsOnce.inOrder`: where it does.
* `Extremum.ofNumbers_comm_iff`, `ofNumbers_assoc_iff`: the laws of the picks.
* `extremum_order`: what the order of evaluation means for maximum and minimum.
* `extremum_order_matters`: where it makes a difference.
-/
namespace TowerCalc

/-! ## Picking one of two -/

section Pick
variable {α : Type} {beyond : α → α → Bool} {Ranked : α → Prop} {a b c : α}

/-- The second of two if it is beyond the first, else the first. -/
def pick (beyond : α → α → Bool) (a b : α) : α := if beyond a b then b else a

theorem pick_of_beyond (h : beyond a b = true) : pick beyond a b = b := if_pos h

theorem pick_of_not_beyond (h : beyond a b = false) : pick beyond a b = a := if_neg (by simp [h])

/-- The elements with the property `Ranked` are in one strict order; no other element has a
place in it. -/
structure Ranks (beyond : α → α → Bool) (Ranked : α → Prop) : Prop where
  ranked {a b : α} (h : beyond a b = true) : Ranked a ∧ Ranked b
  asymm {a b : α} (h : beyond a b = true) : beyond b a = false
  trans {a b c : α} (hab : beyond a b = true) (hbc : beyond b c = true) : beyond a c = true
  connected {a b : α} (ha : Ranked a) (hb : Ranked b) :
    a = b ∨ beyond a b = true ∨ beyond b a = true

namespace Ranks

theorem flip (h : Ranks beyond Ranked) : Ranks (fun a b => beyond b a) Ranked where
  ranked hab := (h.ranked hab).symm
  asymm hab := h.asymm hab
  trans hab hbc := h.trans hbc hab
  connected ha hb := (h.connected ha hb).imp_right Or.symm

theorem irrefl (h : Ranks beyond Ranked) (a : α) : beyond a a = false := by
  cases ha : beyond a a with
  | false => rfl
  | true => exact ha.symm.trans (h.asymm ha)

theorem pick_comm_iff (h : Ranks beyond Ranked) :
    pick beyond a b = pick beyond b a ↔ a = b ∨ (Ranked a ∧ Ranked b) := by
  cases hab : beyond a b with
  | true =>
    rw [pick_of_beyond hab, pick_of_not_beyond (h.asymm hab)]
    exact iff_of_true rfl (.inr (h.ranked hab))
  | false =>
    rw [pick_of_not_beyond hab]
    cases hba : beyond b a with
    | true =>
      rw [pick_of_beyond hba]
      exact iff_of_true rfl (.inr (h.ranked hba).symm)
    | false =>
      rw [pick_of_not_beyond hba]
      refine ⟨.inl, ?_⟩
      rintro (heq | ⟨ha, hb⟩)
      · exact heq
      · rcases h.connected ha hb with heq | hlt | hlt
        · exact heq
        · rw [hab] at hlt; cases hlt
        · rw [hba] at hlt; cases hlt

/-- If `b` is not beyond `a` and `c` is not beyond `b`, then `c` is not beyond `a`. -/
theorem not_beyond_trans (h : Ranks beyond Ranked) (hb : Ranked b) (hab : beyond a b = false)
    (hbc : beyond b c = false) : beyond a c = false := by
  cases hac : beyond a c with
  | false => rfl
  | true =>
    rcases h.connected hb (h.ranked hac).2 with rfl | hlt | hlt
    · exact hac.symm.trans hab
    · exact hlt.symm.trans hbc
    · exact (h.trans hac hlt).symm.trans hab

/-- Only an element without a rank in the middle can hide one beyond the first. -/
theorem pick_assoc_iff (h : Ranks beyond Ranked) :
    pick beyond (pick beyond a b) c = pick beyond a (pick beyond b c) ↔
      Ranked b ∨ beyond a c = false := by
  cases hab : beyond a b with
  | true =>
    refine iff_of_true ?_ (.inl (h.ranked hab).2)
    rw [pick_of_beyond hab]
    cases hbc : beyond b c with
    | true => rw [pick_of_beyond hbc, pick_of_beyond (h.trans hab hbc)]
    | false => rw [pick_of_not_beyond hbc, pick_of_beyond hab]
  | false =>
    rw [pick_of_not_beyond hab]
    cases hbc : beyond b c with
    | true =>
      rw [pick_of_beyond hbc]
      exact iff_of_true rfl (.inl (h.ranked hbc).1)
    | false =>
      rw [pick_of_not_beyond hbc, pick_of_not_beyond hab]
      constructor
      · intro hpick
        refine .inr ?_
        cases hac : beyond a c with
        | false => rfl
        | true =>
          obtain rfl : c = a := (pick_of_beyond hac).symm.trans hpick
          exact hac.symm.trans (h.irrefl c)
      · rintro (hb | hac)
        · exact pick_of_not_beyond (h.not_beyond_trans hb hab hbc)
        · exact pick_of_not_beyond hac

end Ranks

end Pick

/-! ## Numbers in order -/

/-- Rationals are all in order. -/
theorem ranks_rat : Ranks (fun a b : Rat => decide (a < b)) fun _ => True where
  ranked _ := ⟨trivial, trivial⟩
  asymm h := by
    rw [decide_eq_true_iff] at h
    exact decide_eq_false (not_lt.mpr h.le)
  trans hab hbc := by
    rw [decide_eq_true_iff] at *
    exact hab.trans hbc
  connected {a b} _ _ := by
    simp only [decide_eq_true_iff]
    rcases lt_trichotomy a b with hlt | heq | hlt
    · exact .inr (.inl hlt)
    · exact .inl heq
    · exact .inr (.inr hlt)

namespace ExtReal

theorem not_finite_lt {x y : Dyadic} :
    (finite x).lt (finite y) = false ↔ y.toRat ≤ x.toRat := by
  rw [← Bool.not_eq_true, finite_lt_finite, not_lt]

/-- The place of an extended real among the rationals and the infinities; `nan` has none of
its own. -/
def place : ExtReal → WithBot (WithTop Rat)
  | finite x => (x.toRat : WithTop Rat)
  | posInf => (⊤ : WithTop Rat)
  | negInf | nan => ⊥

theorem place_inj {a b : ExtReal} (ha : a ≠ nan) (hb : b ≠ nan) :
    a.place = b.place ↔ a = b := by
  cases a <;> cases b <;> simp_all [place, Dyadic.toRat_inj]

theorem lt_iff_place (a b : ExtReal) :
    a.lt b = true ↔ (a ≠ nan ∧ b ≠ nan) ∧ a.place < b.place := by
  cases a <;> cases b <;> simp [lt, place, -WithBot.coe_top]

/-- Extended reals are in order, apart from `nan`. -/
theorem ranks_lt : Ranks lt (· ≠ nan) where
  ranked h := ((lt_iff_place _ _).mp h).1
  asymm {a b} h := by
    rw [Bool.eq_false_iff, Ne, lt_iff_place]
    exact fun hba => lt_asymm ((lt_iff_place a b).mp h).2 hba.2
  trans hab hbc := by
    rw [lt_iff_place] at *
    exact ⟨⟨hab.1.1, hbc.1.2⟩, hab.2.trans hbc.2⟩
  connected {a b} ha hb := by
    rw [lt_iff_place, lt_iff_place]
    rcases lt_trichotomy a.place b.place with hlt | heq | hlt
    · exact .inr (.inl ⟨⟨ha, hb⟩, hlt⟩)
    · exact .inl ((place_inj ha hb).mp heq)
    · exact .inr (.inr ⟨⟨hb, ha⟩, hlt⟩)

end ExtReal

/-! ## What the families pick -/

/-- The functions of the table that pick one of two numbers. -/
inductive Extremum where
  | max
  | min

namespace Extremum
variable {α : Type}

def key : Extremum → String
  | max => "max"
  | min => "min"

def primitive : Extremum → OrderedBinary
  | max => .max
  | min => .min

/-- `b` is beyond `a`: above it for the maximum, below it for the minimum. -/
def beyond (m : Extremum) (lt : α → α → Bool) (a b : α) : Bool :=
  match m with
  | max => lt a b
  | min => lt b a

theorem ranks (m : Extremum) {lt : α → α → Bool} {Ranked : α → Prop} (h : Ranks lt Ranked) :
    Ranks (m.beyond lt) Ranked := by
  cases m with
  | max => exact h
  | min => exact h.flip

/-- The pick among rationals. -/
def ofRationals (m : Extremum) : Rat → Rat → Rat := pick (m.beyond fun a b => decide (a < b))

/-- The pick among extended reals. -/
def ofReals (m : Extremum) : ExtReal → ExtReal → ExtReal := pick (m.beyond ExtReal.lt)

end Extremum

/-- The extended real that a number is compared as. -/
def Number.realAt (P : Precision) (x : Number) : ExtReal := (x.toScalar P).re

/-- The number is no number. -/
def Number.IsNan (x : Number) : Prop := x = .real .nan

namespace Extremum

/-- Exact numbers are compared as rationals, others as extended reals. -/
def ofNumbers (m : Extremum) (P : Precision) (x y : Number) : Number :=
  match x.exactValue?, y.exactValue? with
  | some p, some q => (Number.rational (m.ofRationals p q)).promote
  | _, _ => .real (m.ofReals (x.realAt P) (y.realAt P))

theorem real_eq (m : Extremum) (C : Context) {x y : Number} (hx : x.IsReal) (hy : y.IsReal) :
    RealFamily.orderedBinary C m.primitive x y =
      .ok (.real (m.ofReals (x.realAt C.precision) (y.realAt C.precision))) := by
  have hordered {x : Number} (hx : x.IsReal) :
      RealFamily.ordered (x.toScalar C.precision) = .ok (x.realAt C.precision) := by
    cases x with
    | complex z => exact absurd rfl hx
    | _ => rfl
  cases m with
  | max => simp only [RealFamily.orderedBinary, primitive, hordered hx, hordered hy]; rfl
  | min => simp only [RealFamily.orderedBinary, primitive, hordered hx, hordered hy]; rfl

theorem rational_eq (m : Extremum) (C : Context) {x y : Number} {p q : Rat}
    (hx : x.exactValue? = some p) (hy : y.exactValue? = some q) :
    RationalFamily.orderedBinary C m.primitive x y = .ok (.rational (m.ofRationals p q)) := by
  have hpx : RationalFamily.exact C x = pure p := Number.toRational_of_exactValue hx
  have hqy : RationalFamily.exact C y = pure q := Number.toRational_of_exactValue hy
  cases m with
  | max => simp [RationalFamily.orderedBinary, primitive, hpx, hqy, ofRationals, pick, beyond]; rfl
  | min => simp [RationalFamily.orderedBinary, primitive, hpx, hqy, ofRationals, pick, beyond]; rfl

theorem exists_signature (m : Extremum) : ∃ s ∈ signatures, s.key = m.key ∧
    s.window.Admits 2 ∧ s.handler.selected? 2 = some (.orderedBinary m.primitive) := by
  cases m <;> decide +kernel

end Extremum

/-- Among numbers that are not complex one that is not exact is a real, and so is the
widest. -/
theorem Widest.eq_real {r : Representation} {x y : Number} (hr : Widest r [x, y])
    (hx : x.IsReal) (hy : y.IsReal) (h : ¬ (x.IsExact ∧ y.IsExact)) : r = .real := by
  have hexact {z : Number} (hz : z.representation.rank ≤ 1) : z.IsExact := by
    cases z with
    | integer n => exact Number.isExact_integer n
    | rational q => exact Number.isExact_rational q
    | _ => simp [Number.representation, Representation.rank] at hz
  have hreal : r ≠ .complex := by
    obtain ⟨z, hz, rfl⟩ := hr.exists_mem
    rcases List.mem_pair.mp hz with rfl | rfl
    · exact hx
    · exact hy
  have hwide : ¬ r.rank ≤ 1 := fun hle =>
    h ⟨hexact ((hr.rank_le x (by simp)).trans hle), hexact ((hr.rank_le y (by simp)).trans hle)⟩
  cases r with
  | real => rfl
  | complex => exact absurd rfl hreal
  | integer | rational => exact absurd (by decide) hwide

namespace Extremum
variable {m : Extremum} {P : Precision} {x y z : Number}

theorem ofNumbers_of_exactValue {p q : Rat} (hx : x.exactValue? = some p)
    (hy : y.exactValue? = some q) :
    m.ofNumbers P x y = (Number.rational (m.ofRationals p q)).promote := by
  simp only [ofNumbers, hx, hy]

theorem ofNumbers_of_not_isExact (h : ¬ (x.IsExact ∧ y.IsExact)) :
    m.ofNumbers P x y = .real (m.ofReals (x.realAt P) (y.realAt P)) := by
  unfold ofNumbers
  split
  · next p q hp hq =>
    exact absurd ⟨Number.isExact_of_exactValue hp, Number.isExact_of_exactValue hq⟩ h
  · rfl

theorem isReal_ofNumbers : (m.ofNumbers P x y).IsReal := by
  unfold ofNumbers
  split
  · rw [Number.promote]
    split <;> exact Representation.noConfusion
  · exact Representation.noConfusion

theorem apply_eq (m : Extremum) (C : Context) {r : Representation} (hx : x.IsReal)
    (hy : y.IsReal) (hr : Widest r [x, y]) :
    (apply C r (.orderedBinary m.primitive) [x, y]).map Number.promote =
      .ok (m.ofNumbers C.precision x y) := by
  by_cases h : x.IsExact ∧ y.IsExact
  · obtain ⟨p, hp⟩ := h.1.exists_value
    obtain ⟨q, hq⟩ := h.2.exists_value
    have hrational : apply C r (.orderedBinary m.primitive) [x, y] =
        RationalFamily.orderedBinary C m.primitive x y := by
      rcases hr.of_isExact (by simpa using h) with rfl | rfl
      · cases m <;> rfl
      · rfl
    rw [hrational, m.rational_eq C hp hq, ofNumbers_of_exactValue hp hq]
    rfl
  · rw [hr.eq_real hx hy h, ofNumbers_of_not_isExact h]
    exact congrArg (Except.map Number.promote) (m.real_eq C hx hy)

/-- A call picks one of its arguments and never fails. -/
theorem call_eq (m : Extremum) {K : Calculator} (hK : K.IsStandard) {v w : Value}
    (hv : v.coerce K.context.precision = .ok x) (hw : w.coerce K.context.precision = .ok y)
    (hx : x.IsReal) (hy : y.IsReal) :
    (K.call m.key [v, w]).result = .ok (.number (m.ofNumbers K.context.precision x y)) := by
  obtain ⟨s, hs, hkey, hadmits, hp⟩ := m.exists_signature
  obtain ⟨r, hr⟩ := exists_widest (by simp : [x, y] ≠ [])
  rw [← hkey, hK.call_binary hs hadmits hp hv hw hr]
  exact map_promote_eq_ok_iff.mpr (m.apply_eq K.context hx hy hr)

end Extremum

/-! ## Conversion and order -/

/-- Exact numbers become extended reals in the same order, and so do their narrowest forms. -/
structure Number.InOrder (P : Precision) (x y : Number) : Prop where
  le {p q : Rat} (hp : x.exactValue? = some p) (hq : y.exactValue? = some q) (h : p ≤ q) :
    (y.realAt P).lt (x.realAt P) = false
  ge {p q : Rat} (hp : x.exactValue? = some p) (hq : y.exactValue? = some q) (h : q ≤ p) :
    (x.realAt P).lt (y.realAt P) = false
  promote_left : x.promote.realAt P = x.realAt P
  promote_right : y.promote.realAt P = y.realAt P

namespace Number
variable {P : Precision} {x y : Number}

theorem promote_rational_of_exactValue {q : Rat} (h : x.exactValue? = some q) :
    (rational q).promote = x.promote := by
  cases x with
  | integer n => cases h; simp [promote]
  | rational r => cases h; rfl
  | _ => cases h

theorem realAt_ne_nan_iff (hx : x.IsReal) : x.realAt P ≠ .nan ↔ ¬ x.IsNan := by
  cases x with
  | integer n => exact iff_of_true ExtReal.noConfusion Number.noConfusion
  | rational q => exact iff_of_true ExtReal.noConfusion Number.noConfusion
  | real x => simp [realAt, toScalar, toScalarAt, Scalar.re, IsNan]
  | complex z => exact absurd rfl hx

theorem IsExact.isReal (h : x.IsExact) : x.IsReal := by
  cases x with
  | complex z => exact absurd h (not_isExact_complex z)
  | _ => exact Representation.noConfusion

theorem IsExact.not_isNan (h : x.IsExact) : ¬ x.IsNan := by
  rintro rfl
  exact not_isExact_real _ h

/-- Integers convert exactly at any size. -/
theorem inOrder_integers (P : Precision) (m n : Int) : InOrder P (integer m) (integer n) := by
  have hkeeps {m n : Int} (h : (m : Rat) ≤ n) : (ExtReal.ofInt n).lt (.ofInt m) = false := by
    rw [ExtReal.ofInt, ExtReal.ofInt, ExtReal.not_finite_lt, Dyadic.toRat_intCast,
      Dyadic.toRat_intCast]
    exact h
  refine ⟨fun hp hq h => ?_, fun hp hq h => ?_, rfl, rfl⟩
  · cases hp
    cases hq
    exact hkeeps h
  · cases hp
    cases hq
    exact hkeeps h

/-- A number that becomes an extended real by one rounding at most, and by none if it is an
integer. -/
def ConvertsOnce (P : Precision) : Number → Prop
  | integer n => Fits P.bits n
  | rational q => RoundsOnce P.bits q ∧ (q.den = 1 → Fits P.bits q.num)
  | real _ | complex _ => False

namespace ConvertsOnce

theorem exists_isNearest (h : x.ConvertsOnce P) : ∃ q a, x.exactValue? = some q ∧
    x.realAt P = .finite a ∧ IsNearest P.bits q a.toRat := by
  cases x with
  | integer n =>
    have hfits : Fits P.bits n := h
    refine ⟨n, (n : Dyadic), rfl, rfl, ?_⟩
    rw [Dyadic.toRat_intCast]
    exact .of_fits hfits
  | rational q =>
    obtain ⟨a, ha, hnear⟩ := ExtReal.isNearest_ofQuotient P.bits_pos h.1
    exact ⟨q, a, rfl, ha, hnear⟩
  | real _ => cases h
  | complex _ => cases h

theorem realAt_promote (h : x.ConvertsOnce P) : x.promote.realAt P = x.realAt P := by
  cases x with
  | rational q =>
    rw [promote]
    split
    case isTrue hden =>
      -- the rational is an integer that fits, so nothing is rounded
      obtain ⟨a, ha, hnear⟩ := ExtReal.isNearest_ofQuotient P.bits_pos h.1
      have hq : (q.num : Rat) = q := Rat.coe_int_num_of_den_eq_one hden
      have hvalue : a = (q.num : Dyadic) := by
        rw [← Dyadic.toRat_inj, Dyadic.toRat_intCast, hnear.eq_of_fits (hq ▸ h.2 hden), hq]
      rw [hvalue] at ha
      exact ha.symm
    case isFalse => rfl
  | integer n => rfl
  | real _ => rfl
  | complex _ => cases h

/-- Rounding is monotone. -/
theorem not_lt {p q : Rat} (hx : x.ConvertsOnce P) (hy : y.ConvertsOnce P)
    (hp : x.exactValue? = some p) (hq : y.exactValue? = some q) (h : p ≤ q) :
    (y.realAt P).lt (x.realAt P) = false := by
  obtain ⟨p', a, hp', ha, hpa⟩ := hx.exists_isNearest
  obtain ⟨q', b, hq', hb, hqb⟩ := hy.exists_isNearest
  cases hp.symm.trans hp'
  cases hq.symm.trans hq'
  rw [ha, hb, ExtReal.not_finite_lt]
  exact hpa.mono hqb h

theorem inOrder (hx : x.ConvertsOnce P) (hy : y.ConvertsOnce P) : InOrder P x y where
  le hp hq h := hx.not_lt hy hp hq h
  ge hp hq h := hy.not_lt hx hq hp h
  promote_left := hx.realAt_promote
  promote_right := hy.realAt_promote

end ConvertsOnce

end Number

namespace Extremum
variable {m : Extremum} {P : Precision} {x y z : Number}

section InOrder
variable {p q : Rat} (h : x.InOrder P y) (hp : x.exactValue? = some p) (hq : y.exactValue? = some q)
include h hp hq

theorem not_beyond_of_not_beyond
    (hb : m.beyond (fun a b => decide (a < b)) p q = false) :
    m.beyond ExtReal.lt (x.realAt P) (y.realAt P) = false := by
  cases m with
  | max => exact h.ge hp hq (not_lt.mp (of_decide_eq_false hb))
  | min => exact h.le hp hq (not_lt.mp (of_decide_eq_false hb))

theorem not_beyond_of_beyond
    (hb : m.beyond (fun a b => decide (a < b)) p q = true) :
    m.beyond ExtReal.lt (y.realAt P) (x.realAt P) = false := by
  cases m with
  | max => exact h.le hp hq (of_decide_eq_true hb).le
  | min => exact h.ge hp hq (of_decide_eq_true hb).le

end InOrder

/-- Conversion after the pick comes to the same as before it. -/
theorem realAt_ofNumbers (hx : x.IsReal) (hy : y.IsReal)
    (h : x.IsExact → y.IsExact → x.InOrder P y) :
    (m.ofNumbers P x y).realAt P = m.ofReals (x.realAt P) (y.realAt P) := by
  by_cases hxy : x.IsExact ∧ y.IsExact
  · obtain ⟨p, hp⟩ := hxy.1.exists_value
    obtain ⟨q, hq⟩ := hxy.2.exists_value
    have hin := h hxy.1 hxy.2
    rw [ofNumbers_of_exactValue hp hq, ofRationals, ofReals]
    cases hb : m.beyond (fun a b => decide (a < b)) p q with
    | false =>
      rw [pick_of_not_beyond hb, pick_of_not_beyond (not_beyond_of_not_beyond hin hp hq hb),
        Number.promote_rational_of_exactValue hp, hin.promote_left]
    | true =>
      rw [pick_of_beyond hb, Number.promote_rational_of_exactValue hq, hin.promote_right]
      have hnot := not_beyond_of_beyond hin hp hq hb
      -- conversion may make the two equal, but not turn them round
      rcases (m.ranks ExtReal.ranks_lt).connected
        ((Number.realAt_ne_nan_iff hx).mpr hxy.1.not_isNan)
        ((Number.realAt_ne_nan_iff hy).mpr hxy.2.not_isNan) with heq | hlt | hlt
      · rw [← heq, pick_of_not_beyond ((m.ranks ExtReal.ranks_lt).irrefl _)]
      · exact (pick_of_beyond hlt).symm
      · exact absurd (hlt.symm.trans hnot) (by decide)
  · rw [ofNumbers_of_not_isExact hxy]
    rfl

theorem exactValue_ofNumbers {p q : Rat} (hp : x.exactValue? = some p)
    (hq : y.exactValue? = some q) :
    (m.ofNumbers P x y).exactValue? = some (m.ofRationals p q) := by
  rw [ofNumbers_of_exactValue hp hq, Number.promote]
  split
  · next hden => exact congrArg some (Rat.coe_int_num_of_den_eq_one hden)
  · rfl

theorem isExact_ofNumbers : (m.ofNumbers P x y).IsExact ↔ x.IsExact ∧ y.IsExact := by
  constructor
  · intro h
    by_contra hxy
    rw [ofNumbers_of_not_isExact hxy] at h
    exact Number.not_isExact_real _ h
  · rintro ⟨hx, hy⟩
    obtain ⟨p, hp⟩ := hx.exists_value
    obtain ⟨q, hq⟩ := hy.exists_value
    exact Number.isExact_of_exactValue (exactValue_ofNumbers hp hq)

/-- Either order picks the same number, unless one operand alone is no number. -/
theorem ofNumbers_comm_iff (hx : x.IsReal) (hy : y.IsReal) :
    m.ofNumbers P x y = m.ofNumbers P y x ↔ (x.IsNan ↔ y.IsNan) := by
  by_cases hxy : x.IsExact ∧ y.IsExact
  · obtain ⟨p, hp⟩ := hxy.1.exists_value
    obtain ⟨q, hq⟩ := hxy.2.exists_value
    refine iff_of_true ?_ (iff_of_false hxy.1.not_isNan hxy.2.not_isNan)
    rw [ofNumbers_of_exactValue hp hq, ofNumbers_of_exactValue hq hp, ofRationals,
      (m.ranks ranks_rat).pick_comm_iff.mpr (.inr ⟨trivial, trivial⟩)]
  · rw [ofNumbers_of_not_isExact hxy, ofNumbers_of_not_isExact fun h => hxy h.symm,
      Number.real.injEq, ofReals, (m.ranks ExtReal.ranks_lt).pick_comm_iff]
    have hxn := Number.realAt_ne_nan_iff (P := P) hx
    have hyn := Number.realAt_ne_nan_iff (P := P) hy
    constructor
    · rintro (heq | ⟨ha, hb⟩)
      · rw [← not_iff_not, ← hxn, ← hyn, heq]
      · exact iff_of_false (hxn.mp ha) (hyn.mp hb)
    · intro hiff
      by_cases hnan : x.IsNan
      · exact .inl (by rw [hnan, hiff.mp hnan])
      · exact .inr ⟨hxn.mpr hnan, hyn.mpr fun h => hnan (hiff.mpr h)⟩

/-- Three operands give the same number in either grouping, unless the one in the middle is
no number and the last one is beyond the first. -/
theorem ofNumbers_assoc_iff (hx : x.IsReal) (hy : y.IsReal) (hz : z.IsReal)
    (hxy : x.IsExact → y.IsExact → ¬ z.IsExact → x.InOrder P y)
    (hyz : y.IsExact → z.IsExact → ¬ x.IsExact → y.InOrder P z) :
    m.ofNumbers P (m.ofNumbers P x y) z = m.ofNumbers P x (m.ofNumbers P y z) ↔
      ¬ (y.IsNan ∧ m.beyond ExtReal.lt (x.realAt P) (z.realAt P) = true) := by
  by_cases hall : x.IsExact ∧ y.IsExact ∧ z.IsExact
  · obtain ⟨p, hp⟩ := hall.1.exists_value
    obtain ⟨q, hq⟩ := hall.2.1.exists_value
    obtain ⟨r, hr⟩ := hall.2.2.exists_value
    refine iff_of_true ?_ fun h => hall.2.1.not_isNan h.1
    have hassoc : m.ofRationals (m.ofRationals p q) r = m.ofRationals p (m.ofRationals q r) :=
      (m.ranks ranks_rat).pick_assoc_iff.mpr (.inl trivial)
    rw [ofNumbers_of_exactValue (exactValue_ofNumbers hp hq) hr,
      ofNumbers_of_exactValue hp (exactValue_ofNumbers hq hr), hassoc]
  · have hleft : ¬ ((m.ofNumbers P x y).IsExact ∧ z.IsExact) := fun h =>
      hall ⟨(isExact_ofNumbers.mp h.1).1, (isExact_ofNumbers.mp h.1).2, h.2⟩
    have hright : ¬ (x.IsExact ∧ (m.ofNumbers P y z).IsExact) := fun h =>
      hall ⟨h.1, isExact_ofNumbers.mp h.2⟩
    rw [ofNumbers_of_not_isExact hleft, ofNumbers_of_not_isExact hright,
      realAt_ofNumbers hx hy fun h h' => hxy h h' fun h'' => hall ⟨h, h', h''⟩,
      realAt_ofNumbers hy hz fun h h' => hyz h h' fun h'' => hall ⟨h'', h, h'⟩,
      Number.real.injEq, ofReals, (m.ranks ExtReal.ranks_lt).pick_assoc_iff,
      Number.realAt_ne_nan_iff hy, not_and_or, Bool.not_eq_true]

end Extremum

/-! ## Calls -/

/-- **The order of evaluation.** Maximum and minimum of arguments that are not complex always
give a number. Swapping two arguments gives the same number if both or neither is `nan`, and
only then. Of three arguments the two groupings give the same number unless the middle one is
`nan` and the last one is beyond the first, where they do not; this holds as far as conversion
keeps the order of two exact arguments next to each other whose third one is a real. It
does for two integers, and for numbers that are rounded once. -/
theorem extremum_order {K : Calculator} (hK : K.IsStandard) (m : Extremum) {u v w : Value}
    {x y z : Number} (hu : u.coerce K.context.precision = .ok x)
    (hv : v.coerce K.context.precision = .ok y) (hw : w.coerce K.context.precision = .ok z)
    (hx : x.IsReal) (hy : y.IsReal) (hz : z.IsReal) :
    (∃ a b, (K.call m.key [u, v]).result = .ok (.number a) ∧
      (K.call m.key [v, u]).result = .ok (.number b) ∧ (a = b ↔ (x.IsNan ↔ y.IsNan))) ∧
    (∃ a b left right, (K.call m.key [u, v]).result = .ok (.number a) ∧
      (K.call m.key [v, w]).result = .ok (.number b) ∧
      ((K.afterCall m.key [u, v]).call m.key [.number a, w]).result = .ok (.number left) ∧
      ((K.afterCall m.key [v, w]).call m.key [u, .number b]).result = .ok (.number right) ∧
      ((x.IsExact → y.IsExact → ¬ z.IsExact → x.InOrder K.context.precision y) →
        (y.IsExact → z.IsExact → ¬ x.IsExact → y.InOrder K.context.precision z) →
        (left = right ↔ ¬ (y.IsNan ∧ m.beyond ExtReal.lt (x.realAt K.context.precision)
          (z.realAt K.context.precision) = true)))) ∧
    (∀ k n : Int, Number.InOrder K.context.precision (.integer k) (.integer n)) ∧
    ∀ a b : Number, a.ConvertsOnce K.context.precision → b.ConvertsOnce K.context.precision →
      a.InOrder K.context.precision b := by
  have hnext (a : Number) (P : Precision) : (Value.number a).coerce P = .ok a := rfl
  have hw' : w.coerce (K.afterCall m.key [u, v]).context.precision = .ok z := by
    rw [K.afterCall_precision, hw]
  have hu' : u.coerce (K.afterCall m.key [v, w]).context.precision = .ok x := by
    rw [K.afterCall_precision, hu]
  have hleft := m.call_eq (hK.afterCall m.key [u, v])
    (hnext (m.ofNumbers K.context.precision x y) _) hw' Extremum.isReal_ofNumbers hz
  have hright := m.call_eq (hK.afterCall m.key [v, w]) hu'
    (hnext (m.ofNumbers K.context.precision y z) _) hx Extremum.isReal_ofNumbers
  rw [K.afterCall_precision] at hleft hright
  refine ⟨⟨_, _, m.call_eq hK hu hv hx hy, m.call_eq hK hv hu hy hx,
    Extremum.ofNumbers_comm_iff hx hy⟩, ⟨_, _, _, _, m.call_eq hK hu hv hx hy,
    m.call_eq hK hv hw hy hz, hleft, hright, Extremum.ofNumbers_assoc_iff hx hy hz⟩,
    Number.inOrder_integers _, fun a b => Number.ConvertsOnce.inOrder⟩

/-- An integer, a rational and an infinity: both groupings give the infinity. -/
theorem extremum_order_mixed :
    let K := (Calculator.create ⟨.default, true⟩ signatures).1
    let max (x y : Number) := (K.call "max" [.number x, .number y]).result
    let x := Number.integer 1
    let y := Number.rational (1 / 2)
    let z := Number.real .posInf
    K.IsStandard ∧ x.IsReal ∧ y.IsReal ∧ z.IsReal ∧ x.InOrder K.context.precision y ∧
      (∃ a b, max x y = .ok (.number a) ∧ max y x = .ok (.number b) ∧ a = b) ∧
      ∃ a b left right, max x y = .ok (.number a) ∧ max y z = .ok (.number b) ∧
        ((K.afterCall "max" [.number x, .number y]).call "max" [.number a, .number z]).result =
          .ok (.number left) ∧
        ((K.afterCall "max" [.number y, .number z]).call "max" [.number x, .number b]).result =
          .ok (.number right) ∧
        left = right := by
  intro K max x y z
  have hK : K.IsStandard := Calculator.create_isStandard _
  have hx : x.IsReal := Representation.noConfusion
  have hy : y.IsReal := Representation.noConfusion
  have hz : z.IsReal := Representation.noConfusion
  have hfits : Fits K.context.precision.bits 1 := fits_two_zpow K.context.precision.bits_pos 0
  have hxonce : x.ConvertsOnce K.context.precision := by simpa [Number.ConvertsOnce, x] using hfits
  have hyonce : y.ConvertsOnce K.context.precision :=
    ⟨.inr ⟨1, by decide +kernel⟩, fun h => absurd h (by decide +kernel)⟩
  have hin := hxonce.inOrder hyonce
  obtain ⟨⟨a, b, ha, hb, hab⟩, ⟨c, d, left, right, hc, hd, hleft, hright, hiff⟩, -⟩ :=
    extremum_order hK .max (u := .number x) (v := .number y) (w := .number z) rfl rfl rfl hx hy hz
  refine ⟨hK, hx, hy, hz, hin, ⟨a, b, ha, hb, hab.mpr ?_⟩,
    c, d, left, right, hc, hd, hleft, hright, (hiff ?_ ?_).mpr ?_⟩
  · exact iff_of_false Number.noConfusion Number.noConfusion
  · exact fun _ _ _ => hin
  · exact fun _ h => absurd h (Number.not_isExact_real _)
  · exact fun h => Number.noConfusion h.1

/-- **Where the order of evaluation matters.** The maximum of one and `nan` is the first of
them in either order. So `nan` between one and two hides the two in one grouping, in which the
result is one, and not in the other one. And at one decimal digit the rationals 23/5 and
129/28 are turned round when they become reals: next to a number below both, one grouping
compares them before and gives 73/16, the other one after and gives 37/8. -/
theorem extremum_order_matters :
    let K := (Calculator.create ⟨⟨1, by decide⟩, true⟩ signatures).1
    let max (v w : Value) := (K.call "max" [v, w]).result
    let one := Number.real .one
    let two := Number.real (.ofInt 2)
    let nan := Number.real .nan
    let low := Number.real .negInf
    let x := Number.rational (23 / 5)
    let y := Number.rational (129 / 28)
    let above := Number.real (.finite (.ofIntWithPrec 37 3))
    let below := Number.real (.finite (.ofIntWithPrec 73 4))
    (max (.number one) (.number nan) = .ok (.number one) ∧
      max (.number nan) (.number one) = .ok (.number nan) ∧ one ≠ nan) ∧
    ((max (.number one) (.number nan) >>= fun v => max v (.number two)) = .ok (.number two) ∧
      (max (.number nan) (.number two) >>= fun v => max (.number one) v) = .ok (.number one) ∧
      two ≠ one) ∧
    (max (.number x) (.number y) >>= fun v => max v (.number low)) = .ok (.number below) ∧
    (max (.number y) (.number low) >>= fun v => max (.number x) v) = .ok (.number above) ∧
    below ≠ above := by
  intro K max one two nan low x y above below
  have hK : K.IsStandard := Calculator.create_isStandard _
  have hpick {a b c : Number} (ha : a.IsReal) (hb : b.IsReal)
      (hc : Extremum.max.ofNumbers ⟨1, by decide⟩ a b = c) :
      max (.number a) (.number b) = .ok (.number c) := by
    rw [← hc]
    exact Extremum.max.call_eq hK rfl rfl ha hb
  have hnext (v : Value) (f : Value → Except Failure Value) : (Except.ok v >>= f) = f v := rfl
  have hreal (a : ExtReal) : (Number.real a).IsReal := Representation.noConfusion
  have hx : x.IsReal := Representation.noConfusion
  have hy : y.IsReal := Representation.noConfusion
  have hfirst := hpick (hreal .one) (hreal .nan) (c := one) rfl
  refine ⟨⟨hfirst, hpick (hreal _) (hreal _) rfl, by decide⟩, ⟨?_, ?_, by decide +kernel⟩,
    ?_, ?_, by decide +kernel⟩
  · rw [hfirst, hnext]
    exact hpick (hreal _) (hreal _) (by decide +kernel)
  · rw [hpick (hreal .nan) (hreal _) (c := nan) rfl, hnext]
    exact hfirst
  · rw [hpick hx hy (c := y) (by decide +kernel), hnext]
    exact hpick hy (hreal _) (by decide +kernel)
  · rw [hpick hy (hreal .negInf) (c := below) (by decide +kernel), hnext]
    exact hpick hx (hreal _) (by decide +kernel)

end TowerCalc
