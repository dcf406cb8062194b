import TowerCalc.Function.Table
import TowerCalc.Proofs.Resolution
import Mathlib.Data.List.Forall2

/-!
# What a call passes through

A call of a function with a window checks the count of its arguments, coerces them,
resolves their family and runs the handler. Most handlers come to one primitive,
which the count alone selects.

## Results

* `call_fixed_eq_ok_iff`: a call succeeds if and only if every stage does.
* `forall₂_of_mapM`, `exists_of_mapM_error`: what is done to each item of a list.
* `coerce_representation`: coercion keeps representations.
* `mapM_coerce_append`, `mapM_coerce_append_cases`: one value among others.
* `resolve_standard`: among the standard families numbers resolve to that of the
  widest of them.
* `Handler.run_of_selected?`, `Function.call_of_selected?`: a handler that selects a
  primitive runs it, and so does the call.
* `selects_of_admits`: the functions of the table select a primitive of as many
  arguments as there are, for every count that they admit.
-/
namespace TowerCalc

/-! ## One item after the other -/

section Items
variable {α β ε : Type} {f : α → Except ε β} {xs : List α}

/-- The results of a list, one for each item. -/
theorem forall₂_of_mapM {ys : List β} (h : xs.mapM f = .ok ys) :
    List.Forall₂ (fun x y => f x = .ok y) xs ys := by
  induction xs generalizing ys with
  | nil => cases h; exact .nil
  | cons x xs ih =>
    rw [List.mapM_cons] at h
    cases hx : f x with
    | error e => rw [hx] at h; cases h
    | ok y =>
      rw [hx] at h
      cases hxs : xs.mapM f with
      | error e => rw [hxs] at h; cases h
      | ok ys => rw [hxs] at h; cases h; exact .cons hx (ih hxs)

/-- What is related item by item is related to something. -/
theorem exists_mem_right {R : α → β → Prop} {ys : List β} {x : α} (h : List.Forall₂ R xs ys)
    (hx : x ∈ xs) : ∃ y ∈ ys, R x y := by
  induction h with
  | nil => cases hx
  | cons hfirst _ ih =>
    rcases List.mem_cons.mp hx with rfl | hx
    · exact ⟨_, List.mem_cons_self, hfirst⟩
    · obtain ⟨y, hy, hxy⟩ := ih hx
      exact ⟨y, List.mem_cons_of_mem _ hy, hxy⟩

/-- One item after the other is done, up to the first that fails. -/
theorem exists_of_mapM_error {e : ε} (h : xs.mapM f = .error e) : ∃ x ∈ xs, f x = .error e := by
  induction xs with
  | nil => cases h
  | cons x xs ih =>
    rw [List.mapM_cons] at h
    cases hx : f x with
    | error e' => rw [hx] at h; cases h; exact ⟨x, List.mem_cons_self, hx⟩
    | ok y =>
      rw [hx] at h
      cases hxs : xs.mapM f with
      | error e' =>
        rw [hxs] at h
        cases h
        obtain ⟨u, hu, hue⟩ := ih hxs
        exact ⟨u, List.mem_cons_of_mem _ hu, hue⟩
      | ok ys => rw [hxs] at h; cases h

end Items

/-! ## Coercion -/

section Coercion
variable {P : Precision}

theorem coerce_representation {v : Value} {x : Number} (h : v.coerce P = .ok x) :
    v.representation? P = .ok x.representation := by
  cases v with
  | decimal d =>
    simp only [Value.coerce] at h
    cases hd : d.toReal P.bits with
    | error e => rw [hd] at h; cases h
    | ok y => rw [hd] at h; cases h; rfl
  | _ => cases h <;> rfl

/-- A value is coerced for itself, whatever stands before and after it. -/
theorem mapM_coerce_append {v : Value} {x : Number} (hv : v.coerce P = .ok x)
    (before after : List Value) :
    (before ++ v :: after).mapM (Value.coerce P) = do
      let us ← before.mapM (Value.coerce P)
      let vs ← after.mapM (Value.coerce P)
      return us ++ x :: vs := by
  have hx : v.coerce P = pure x := hv
  simp [hx]

/-- One of the values around is no number, or they have numbers of their own. -/
theorem mapM_coerce_append_cases (P : Precision) (before after : List Value) :
    (∃ e, ∀ v x, v.coerce P = .ok x → (before ++ v :: after).mapM (Value.coerce P) = .error e) ∨
    ∃ us vs, us.length = before.length ∧ vs.length = after.length ∧ ∀ v x, v.coerce P = .ok x →
      (before ++ v :: after).mapM (Value.coerce P) = .ok (us ++ x :: vs) := by
  cases hb : before.mapM (Value.coerce P) with
  | error e =>
    refine .inl ⟨e, fun v x hv => ?_⟩
    rw [mapM_coerce_append hv, hb]
    rfl
  | ok us =>
    cases ha : after.mapM (Value.coerce P) with
    | error e =>
      refine .inl ⟨e, fun v x hv => ?_⟩
      rw [mapM_coerce_append hv, hb, ha]
      rfl
    | ok vs =>
      have hus := (forall₂_of_mapM hb).length_eq
      have hvs := (forall₂_of_mapM ha).length_eq
      refine .inr ⟨us, vs, hus.symm, hvs.symm, fun v x hv => ?_⟩
      rw [mapM_coerce_append hv, hb, ha]
      rfl

/-- Coercion keeps the representations that occur. -/
theorem exists_representation_iff {args : List Value} {xs : List Number}
    (h : args.mapM (Value.coerce P) = .ok xs) (r : Representation) :
    (∃ v ∈ args, v.representation? P = .ok r) ↔ ∃ x ∈ xs, x.representation = r := by
  have hall := forall₂_of_mapM h
  clear h
  induction hall with
  | nil => simp
  | cons hv _ ih =>
    simp only [List.mem_cons, exists_eq_or_imp, coerce_representation hv, Except.ok.injEq, ih]

end Coercion

/-! ## The stages of a call -/

namespace Function
variable {R : Resolver} {C : Context} {args : List Value} {name : String} {w : Window}
  {h : Handler}

theorem call_fixed_of_admits {xs : List Number} (hw : w.Admits args.length)
    (hx : args.mapM (Value.coerce C.precision) = .ok xs) :
    (fixed name w h).call R C args = handle R C h xs := by
  simp only [call, (w.check_eq_ok_iff name args.length).mpr hw, hx]

/-- A call that succeeds has passed every stage. -/
theorem call_fixed_eq_ok_iff {v : Value} :
    ((fixed name w h).call R C args).result = .ok v ↔
      w.Admits args.length ∧ ∃ xs f u, args.mapM (Value.coerce C.precision) = .ok xs ∧
        (R.resolve C.precision (xs.map .number)).result = .ok f ∧ h.run C f xs = .ok u ∧
        v = u.promote C.precision := by
  constructor
  · intro hv
    rw [call] at hv
    split at hv
    · cases hv
    · next hc =>
      split at hv
      · cases hv
      · next xs hx =>
        unfold handle at hv
        dsimp only at hv
        split at hv
        · cases hv
        · next f hf =>
          cases hu : h.run C f xs with
          | error e => rw [hu] at hv; cases hv
          | ok u =>
            rw [hu] at hv
            cases hv
            exact ⟨(w.check_eq_ok_iff ..).mp hc, xs, f, u, hx, hf, hu, rfl⟩
  · rintro ⟨hw, xs, f, u, hx, hf, hu, rfl⟩
    rw [call_fixed_of_admits hw hx, handle, hf]
    simp only [hu, Except.map]

end Function

/-! ## Resolution of numbers -/

namespace Resolver

theorem familiesOf_numbers (strict : Bool) (P : Precision) (xs : List Number) :
    (standard strict).familiesOf P (xs.map .number) =
      xs.map fun x => Family.standard x.representation := by
  induction xs with
  | nil => rfl
  | cons x xs ih =>
    have hx : (standard strict).familyFor P (.number x) = .ok (.standard x.representation) := rfl
    rw [List.map_cons, familiesOf_cons hx, ih, List.map_cons]

/-- The standard families send numbers to the family of a widest one of them. -/
theorem resolve_standard (strict : Bool) (P : Precision) {xs : List Number} (hne : xs ≠ []) :
    ∃ x ∈ xs, (∀ y ∈ xs, y.representation.rank ≤ x.representation.rank) ∧
      (standard strict).resolve P (xs.map .number) =
        ⟨.ok (some (.standard x.representation)), []⟩ := by
  have hs : (standard strict).Serves P (xs.map .number) := serves_numbers (fun _ => ⟨_, rfl⟩) xs
  have hr := resolve_of_clashes_eq_nil hs (comparable_standard strict _).clashes_eq_nil
  rw [familiesOf_numbers] at hr
  cases hd : Family.dominant? (xs.map fun x => Family.standard x.representation) with
  | none =>
    rw [Family.dominant?_eq_none_iff, List.map_eq_nil_iff] at hd
    exact absurd hd hne
  | some f =>
    have hf := Family.firstMaximal_of_dominant? hd
    obtain ⟨x, hx, rfl⟩ := List.mem_map.mp hf.mem
    refine ⟨x, hx, fun y hy => ?_, by rw [hr, hd]⟩
    simpa [Family.rank] using hf.rank_le (List.mem_map_of_mem hy)

end Resolver

/-! ## Handlers that come to a primitive -/

namespace Handler

/-- The primitive that the handler runs on `n` arguments, unless it does something else. -/
def selected? (n : Nat) : Handler → Option Primitive
  | primitive p => some p
  | forCount m h other => if n = m then selected? n h else selected? n other
  | deprecated _ h => selected? n h
  | _ => none

theorem run_of_selected? {C : Context} {f : Option Family} {xs : List Number} {h : Handler}
    {p : Primitive} (hp : h.selected? xs.length = some p) : h.run C f xs = applyTo C f p xs := by
  induction h with
  | primitive q => cases hp; rfl
  | forCount m h other ih ihOther =>
    unfold selected? at hp
    unfold run
    split at hp
    · next hm => rw [if_pos hm, ih hp]
    · next hm => rw [if_neg hm, ihOther hp]
  | deprecated _ h ih => exact ih hp
  | _ => cases hp

end Handler

/-- A call that selects a primitive runs it on the family that the arguments resolve to. -/
theorem Function.call_of_selected? {R : Resolver} {C : Context} {args : List Value}
    {xs : List Number} {name : String} {w : Window} {h : Handler} {p : Primitive} {f : Family}
    (hw : w.Admits args.length) (hx : args.mapM (Value.coerce C.precision) = .ok xs)
    (hp : h.selected? args.length = some p)
    (hf : (R.resolve C.precision (xs.map .number)).result = .ok (some f)) :
    ((fixed name w h).call R C args).result =
      (apply C f.representation p xs).map fun x => .number x.promote := by
  rw [(forall₂_of_mapM hx).length_eq] at hp
  rw [call_fixed_of_admits hw hx, handle, hf]
  simp only [Handler.run_of_selected? hp, Handler.applyTo]
  cases apply C f.representation p xs <;> rfl

/-- The keys of the functions that compare numbers or take them apart by size. -/
def orderedKeys : List String := [
  "floor", "ceil", "truncate", "frac", "max", "min", "mod", "fmod", "copySign", "atan2",
  "hypot", "gcd", "lcm", "nextAfter", "nextUp", "nextDown", "ulp", "roundToPrecision",
  "roundToInteger", "roundToPlaces", "roundToMultiple", "round", "scale"]

/-- On `n` arguments the function runs a primitive of `n` arguments, which needs an
order if the key is among the ordered ones. -/
def Signature.Selects (s : Signature) (n : Nat) : Prop :=
  ∃ p ∈ s.handler.selected? n, p.arity = n ∧ (p.isOrdered = true ↔ s.key ∈ orderedKeys)

instance (s : Signature) (n : Nat) : Decidable (s.Selects n) :=
  inferInstanceAs (Decidable (∃ p ∈ s.handler.selected? n, _))

/-- The functions of the table select fitting primitives for all counts that they admit. -/
theorem selects_of_admits {s : Signature} (hs : s ∈ signatures) {n : Nat}
    (hn : s.window.Admits n) : s.Selects n := by
  have table : ∀ s ∈ signatures, ∀ n ∈ s.window.admitted, s.Selects n := by decide +kernel
  exact table s hs n ((s.window.mem_admitted n).mpr hn)

end TowerCalc
