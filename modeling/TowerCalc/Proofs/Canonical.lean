import TowerCalc.Proofs.Calls

/-!
# Results are canonical

A number is canonical if promotion has nothing to narrow. Every call promotes its
result, and coercion leaves numbers alone: what a call returns can be handed to the
next one as it is.

## Results

* `Number.canonical_iff`: the canonical numbers are the fixed points of promotion.
* `exists_eq_promote_of_call`: the functions of the table return promoted numbers.
* `call_canonical`: what they return is canonical and stays so in further calls.
-/
namespace TowerCalc

namespace Number

/-- No rational is an integer, no complex number has imaginary part zero; the part
`nan` is not zero. -/
def Canonical : Number → Prop
  | integer _ | real _ => True
  | rational q => 1 < q.den
  | complex z => z.im.isZero = false

theorem canonical_promote (x : Number) : x.promote.Canonical := by
  cases x with
  | integer n => trivial
  | rational q =>
    rw [promote]
    split
    · trivial
    · next h => exact Nat.lt_of_le_of_ne q.den_pos (Ne.symm h)
  | real x => trivial
  | complex z =>
    rw [promote]
    split
    · trivial
    · next h => exact Bool.eq_false_iff.mpr h

theorem Canonical.promote_eq {x : Number} (h : x.Canonical) : x.promote = x := by
  cases x with
  | integer n => rfl
  | rational q => exact if_neg (Nat.ne_of_gt h)
  | real x => rfl
  | complex z => exact if_neg (Bool.eq_false_iff.mp h)

theorem canonical_iff {x : Number} : x.Canonical ↔ x.promote = x :=
  ⟨Canonical.promote_eq, fun h => h ▸ canonical_promote x⟩

end Number

/-- The functions of the table return numbers, which have been promoted. -/
theorem exists_eq_promote_of_call {s : Signature} (hs : s ∈ signatures) {R : Resolver}
    {C : Context} {args : List Value} {v : Value} (h : (s.function.call R C args).result = .ok v) :
    ∃ y : Number, v = .number y.promote := by
  obtain ⟨hw, xs, f, u, hx, -, hu, rfl⟩ := Function.call_fixed_eq_ok_iff.mp h
  obtain ⟨p, hp, -, -⟩ := selects_of_admits hs hw
  rw [(forall₂_of_mapM hx).length_eq] at hp
  rw [Handler.run_of_selected? hp] at hu
  cases f with
  | none => cases hu
  | some f =>
    unfold Handler.applyTo at hu
    dsimp only at hu
    cases hy : apply C f.representation p xs with
    | error e => rw [hy] at hu; cases hu
    | ok y => rw [hy] at hu; cases hu; exact ⟨y, rfl⟩

/-- **Results are canonical.** What a function of the table returns is a number that
promotion leaves alone. Any further call coerces it to itself, wherever it stands
among the arguments, and its family is the standard one of its representation. -/
theorem call_canonical {s : Signature} (hs : s ∈ signatures) (strict : Bool) (C : Context)
    (args : List Value) {v : Value}
    (h : (s.function.call (.standard strict) C args).result = .ok v) :
    ∃ x : Number, v = .number x ∧ x.Canonical ∧ ∀ P : Precision,
      v.promote P = v ∧ v.coerce P = .ok x ∧
      (∀ before after, (before ++ v :: after).mapM (Value.coerce P) = do
        let us ← before.mapM (Value.coerce P)
        let vs ← after.mapM (Value.coerce P)
        return us ++ x :: vs) ∧
      ∀ again, (Resolver.standard again).familyFor P v = .ok (.standard x.representation) ∧
        (Resolver.standard again).resolve P [v] =
          ⟨.ok (some (.standard x.representation)), []⟩ := by
  obtain ⟨y, rfl⟩ := exists_eq_promote_of_call hs h
  have hy := y.canonical_promote
  refine ⟨y.promote, rfl, hy, fun P => ⟨?_, rfl, ?_, fun again => ⟨rfl, rfl⟩⟩⟩
  · exact congrArg Value.number hy.promote_eq
  · exact fun before after => mapM_coerce_append rfl before after

/-- The sum of two halves is an integer, and so it is to all that follows. -/
theorem call_canonical_halves :
    let s := forward "add" (.binary .add) "add(x,y): x + y"
    let half := Value.number (.rational (1 / 2))
    s ∈ signatures ∧
      (s.function.call (.standard true) ⟨.default, 0⟩ [half, half]).result = .ok (.integer 1) ∧
      ∃ x : Number, Value.integer 1 = .number x ∧ x.Canonical ∧
        ∀ P, (Value.integer 1).coerce P = .ok x := by
  intro s half
  have hs : s ∈ signatures := by simp [signatures, forwarded, s]
  have sum : (1 / 2 + 1 / 2 : Rat) = 1 := by decide +kernel
  have narrowed : (Value.number (.rational (1 / 2 + 1 / 2))).promote .default = .integer 1 := by
    rw [sum]; rfl
  have hr : (s.function.call (.standard true) ⟨.default, 0⟩ [half, half]).result =
      .ok (.integer 1) :=
    Function.call_fixed_eq_ok_iff.mpr ⟨by decide, _, _, _, rfl, rfl, rfl, narrowed.symm⟩
  obtain ⟨x, hx, hc, further⟩ := call_canonical hs true ⟨.default, 0⟩ [half, half] hr
  exact ⟨hs, hr, x, hx, hc, fun P => (further P).2.1⟩

end TowerCalc
