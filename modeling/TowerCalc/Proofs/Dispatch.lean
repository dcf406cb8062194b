import TowerCalc.Proofs.Calls
import TowerCalc.Proofs.Failures

/-!
# Dispatch is type safe

The family that a call resolves to is at least as wide as every argument. So its
primitives never meet a number that they cannot compare, except where the family
itself is the complex one, which refuses to compare at all.

## Results

* `kind_of_isNumeric`: the kinds of numeric failures.
* `apply_needsOrder_iff`: which primitives are refused.
* `call_type_safe`: the functions of the table on arguments that coerce.
-/
namespace TowerCalc

/-- No numeric failure is a mistake in types or a missing primitive. -/
theorem kind_of_isNumeric {e : Failure} (h : e.isNumeric = true) :
    e.kind ≠ .type ∧ e.kind ≠ .attribute := by
  cases e <;> simp_all [Failure.kind]

theorem isReal_of_rank_le {x y : Number} (hy : y.IsReal)
    (h : x.representation.rank ≤ y.representation.rank) : x.IsReal := by
  unfold Number.IsReal at *
  intro hx
  rw [hx] at h
  cases hr : y.representation <;> simp_all [Representation.rank]

variable {C : Context}

/-- On the family of a widest operand a primitive either fails numerically at worst, or
it needs an order and the family is the complex one. -/
theorem apply_widest {p : Primitive} {xs : List Number} {x : Number}
    (hn : xs.length = p.arity)
    (hw : ∀ y ∈ xs, y.representation.rank ≤ x.representation.rank) :
    if x.representation = .complex ∧ p.isOrdered = true then
      ∃ op, apply C x.representation p xs = .error (.needsOrder op)
    else Numeric (apply C x.representation p xs) := by
  split
  · next h => rw [h.1]; exact apply_complex_ordered C hn h.2
  · next h =>
    refine numeric_apply C hn (fun hc => ?_) fun hr y hy => isReal_of_rank_le hr (hw y hy)
    simpa [hc] using h

/-- **Type-safe dispatch.** A function of the table on arguments that coerce selects
a primitive of as many arguments, and the standard families give it one family to run
on. The call never fails for a wrong type or a missing primitive. It is refused as
unordered if and only if the function is an ordered one and some argument is complex. -/
theorem call_type_safe {s : Signature} (hs : s ∈ signatures) (strict : Bool) (C : Context)
    {args : List Value} {xs : List Number} (hw : s.window.Admits args.length)
    (hx : args.mapM (Value.coerce C.precision) = .ok xs) :
    (∃ p r, s.handler.selected? args.length = some p ∧ p.arity = args.length ∧
      (Resolver.standard strict).resolve C.precision (xs.map .number) =
        ⟨.ok (some (.standard r)), []⟩ ∧
      (s.function.call (.standard strict) C args).result =
        (apply C r p xs).map fun x => .number x.promote) ∧
    (∀ e, (s.function.call (.standard strict) C args).result = .error e →
      e.kind ≠ .type ∧ e.kind ≠ .attribute) ∧
    ((∃ op, (s.function.call (.standard strict) C args).result = .error (.needsOrder op)) ↔
      s.key ∈ orderedKeys ∧ ∃ v ∈ args, v.representation? C.precision = .ok .complex) := by
  obtain ⟨p, hp, ha, ho⟩ := selects_of_admits hs hw
  have hl := (forall₂_of_mapM hx).length_eq
  have hne : xs ≠ [] := by
    rintro rfl
    cases p <;> simp_all [Primitive.arity]
  obtain ⟨x, hxm, hwide, hr⟩ := Resolver.resolve_standard strict C.precision hne
  have hcall : (s.function.call (.standard strict) C args).result =
      (apply C x.representation p xs).map fun x => .number x.promote := by
    rw [Signature.function, Function.call_of_selected? hw hx hp (congrArg Resolution.result hr),
      Family.standard_representation]
  have hcomplex : (∃ v ∈ args, v.representation? C.precision = .ok .complex) ↔
      x.representation = .complex := by
    rw [exists_representation_iff hx]
    constructor
    · rintro ⟨y, hy, hc⟩
      by_contra h
      exact isReal_of_rank_le h (hwide y hy) hc
    · exact fun h => ⟨x, hxm, h⟩
  refine ⟨⟨p, _, hp, ha, hr, hcall⟩, ?_⟩
  rw [hcall, hcomplex, ← ho]
  have happly := apply_widest (C := C) (hl.symm.trans ha.symm) hwide
  split at happly
  · next h =>
    obtain ⟨op, hop⟩ := happly
    rw [hop]
    refine ⟨fun e he => ?_, fun _ => ⟨h.2, h.1⟩, fun _ => ⟨op, rfl⟩⟩
    cases he
    simp [Failure.kind]
  · next h =>
    have hnum : Numeric ((apply C x.representation p xs).map fun x => Value.number x.promote) :=
      numeric_map.mpr happly
    refine ⟨fun e he => kind_of_isNumeric (hnum e he), ?_, ?_⟩
    · rintro ⟨op, hop⟩
      cases hnum _ hop
    · rintro ⟨hp, hc⟩
      exact absurd ⟨hc, hp⟩ h

/-- The maximum of three and a complex number is refused even if that number is real. -/
theorem call_type_safe_max :
    let s := forward "max" (.orderedBinary .max) "larger of x and y"
    let xs := [Number.integer 3, .complex ⟨.one, .zero⟩]
    let args := xs.map Value.number
    s ∈ signatures ∧ s.window.Admits args.length ∧
      args.mapM (Value.coerce .default) = .ok xs ∧
      ∀ strict, ∃ op, (s.function.call (.standard strict) ⟨.default, 0⟩ args).result =
        .error (.needsOrder op) := by
  intro s xs args
  have hs : s ∈ signatures := by simp [signatures, forwarded, s]
  have hw : s.window.Admits args.length := by decide
  have hx : args.mapM (Value.coerce .default) = .ok xs := rfl
  refine ⟨hs, hw, hx, fun strict => ?_⟩
  obtain ⟨-, -, refused⟩ := call_type_safe hs strict ⟨.default, 0⟩ hw hx
  exact refused.mpr ⟨by decide, _, .tail _ (.head _), rfl⟩

end TowerCalc
