import TowerCalc.Proofs.Calls
import TowerCalc.Proofs.Resolution
import Mathlib.Data.List.Induction

/-!
# Where a resolution stops

Values are resolved from left to right. A resolution fails at the first value whose
representation has no family, or, if it is strict, at the first value whose family is
incomparable with the one found so far. What comes after that value is not looked at, and what
a value is does not matter beyond its representation.

## Results

* `Resolver.Stops`: the first value that cannot be resolved, and the failure.
* `Resolver.resolve_eq_error_iff`: resolutions fail where they stop.
* `Resolver.Stops.append`: later values make no difference to a failure.
* `Resolver.resolve_append`: a resolution without a failure goes on to the later values.
* `Resolver.resolveFrom_congr`: resolutions see nothing of values but their families.
* `Resolver.resolve_coerced`: numbers resolve as the values that they are read from.
-/
namespace TowerCalc

namespace Resolver

/-- A resolution of `vs` fails: the values before some value resolve, and that value has a
representation without a family, or a family that a strict resolver may not pass. -/
inductive Stops (R : Resolver) (P : Precision) (vs : List Value) : Failure → Prop
  | missing {before after : List Value} {u : Value} {found : Option Family} {s : Representation}
      (hvs : vs = before ++ u :: after) (hbefore : (R.resolve P before).result = .ok found)
      (hu : u.representation? P = .ok s) (hs : R.families s = none) : R.Stops P vs (.noFamily s)
  | ambiguous {before after : List Value} {u : Value} {k o : Family} (hR : R.strict = true)
      (hvs : vs = before ++ u :: after) (hbefore : (R.resolve P before).result = .ok (some k))
      (hu : R.familyFor P u = .ok o) (hko : k.Incomparable o) :
      R.Stops P vs (.ambiguous k.name o.name)

variable {R S : Resolver} {P : Precision}

theorem familyFor_of_missing {u : Value} {s : Representation} (hu : u.representation? P = .ok s)
    (hs : R.families s = none) : R.familyFor P u = .error (.noFamily s) := by
  simp only [familyFor, hu, hs, bind, Except.bind]
  rfl

/-- A resolution of one list after another: the second is not looked at if the first fails. -/
theorem resolveFrom_append_result (dominant : Option Family) (us vs : List Value) :
    (resolveFrom R P dominant (us ++ vs)).result =
      (resolveFrom R P dominant us).result >>= fun found => (resolveFrom R P found vs).result := by
  induction us generalizing dominant with
  | nil => rfl
  | cons u us ih =>
    cases hu : R.familyFor P u with
    | error e => rw [List.cons_append, resolveFrom_cons_error hu, resolveFrom_cons_error hu]; rfl
    | ok f =>
      cases dominant with
      | none => rw [List.cons_append, resolveFrom_cons_none hu, resolveFrom_cons_none hu, ih]
      | some d =>
        rw [List.cons_append, resolveFrom_cons_some hu, resolveFrom_cons_some hu]
        split
        · split
          · rfl
          · exact ih _
        · exact ih _

theorem resolve_append {us : List Value} {found : Option Family}
    (h : (R.resolve P us).result = .ok found) (vs : List Value) :
    (R.resolve P (us ++ vs)).result = (resolveFrom R P found vs).result := by
  rw [resolve] at h
  rw [resolve, resolveFrom_append_result, h]
  rfl

/-! ## Failures -/

theorem Stops.append {us : List Value} {e : Failure} (h : R.Stops P us e) (vs : List Value) :
    R.Stops P (us ++ vs) e := by
  cases h with
  | missing hus hbefore hu hs =>
    exact .missing (by rw [hus, List.append_assoc, List.cons_append]) hbefore hu hs
  | ambiguous hR hus hbefore hu hko =>
    exact .ambiguous hR (by rw [hus, List.append_assoc, List.cons_append]) hbefore hu hko

theorem Stops.resolve_eq {vs : List Value} {e : Failure} (h : R.Stops P vs e) :
    (R.resolve P vs).result = .error e := by
  cases h with
  | missing hvs hbefore hu hs =>
    rw [hvs, resolve_append hbefore, resolveFrom_cons_error (familyFor_of_missing hu hs)]
  | ambiguous hR hvs hbefore hu hko =>
    rw [hvs, resolve_append hbefore, resolveFrom_cons_some hu, if_pos hko, if_pos hR]

/-- The last of the values is where a resolution fails that has come so far. -/
theorem stops_concat {us : List Value} {u : Value} {found : Option Family} {s : Representation}
    {e : Failure} (hus : (R.resolve P us).result = .ok found) (hu : u.representation? P = .ok s)
    (h : (resolveFrom R P found [u]).result = .error e) : R.Stops P (us ++ [u]) e := by
  cases hf : R.familyFor P u with
  | error e' =>
    have hs : R.families s = none := by
      by_contra hne
      obtain ⟨f, hs⟩ := Option.ne_none_iff_exists'.mp hne
      rw [familyFor_eq_ok_iff.mpr ⟨s, hu, hs⟩] at hf
      cases hf
    rw [resolveFrom_cons_error (familyFor_of_missing hu hs)] at h
    cases h
    exact .missing rfl hus hu hs
  | ok o =>
    cases found with
    | none => rw [resolveFrom_cons_none hf] at h; cases h
    | some k =>
      rw [resolveFrom_cons_some hf] at h
      split at h
      · next hko =>
        split at h
        · next hR =>
          cases h
          exact .ambiguous hR rfl hus hf hko
        · cases h
      · cases h

/-- Values that have representations fail to resolve where their resolution stops. -/
theorem resolve_eq_error_iff {vs : List Value} {e : Failure}
    (hvs : ∀ v ∈ vs, ∃ s, v.representation? P = .ok s) :
    (R.resolve P vs).result = .error e ↔ R.Stops P vs e := by
  refine ⟨fun h => ?_, Stops.resolve_eq⟩
  -- from the end of the list: either the last value is at fault or an earlier one
  induction vs using List.reverseRecOn generalizing e with
  | nil => cases h
  | append_singleton us u ih =>
    have hus : ∀ v ∈ us, ∃ s, v.representation? P = .ok s :=
      fun v hv => hvs v (List.mem_append_left _ hv)
    obtain ⟨s, hu⟩ := hvs u (by simp)
    cases hr : (R.resolve P us).result with
    | error e' =>
      have hstop : R.Stops P (us ++ [u]) e' := (ih hus hr).append [u]
      cases hstop.resolve_eq.symm.trans h
      exact hstop
    | ok found => exact stops_concat hr hu (by rw [← resolve_append hr, h])

/-! ## Resolutions of the same families -/

theorem familyFor_congr {v w : Value} (h : v.representation? P = w.representation? P) :
    R.familyFor P v = R.familyFor P w := by
  rw [familyFor, familyFor, h]

/-- Resolutions see nothing of values but their families. -/
theorem resolveFrom_congr (hstrict : R.strict = S.strict) {vs ws : List Value}
    (h : List.Forall₂ (fun v w => R.familyFor P v = S.familyFor P w) vs ws)
    (dominant : Option Family) : resolveFrom R P dominant vs = resolveFrom S P dominant ws := by
  induction h generalizing dominant with
  | nil => rfl
  | @cons v w vs ws hv _ ih =>
    cases hw : S.familyFor P w with
    | error e => rw [resolveFrom_cons_error (hv.trans hw), resolveFrom_cons_error hw]
    | ok f =>
      cases dominant with
      | none => rw [resolveFrom_cons_none (hv.trans hw), resolveFrom_cons_none hw, ih]
      | some d =>
        rw [resolveFrom_cons_some (hv.trans hw), resolveFrom_cons_some hw, hstrict, ih, ih]

/-- Values that numbers are read from have representations. -/
theorem exists_representation_of_coerced {args : List Value} {xs : List Number}
    (hx : args.mapM (Value.coerce P) = .ok xs) : ∀ v ∈ args, ∃ s, v.representation? P = .ok s := by
  have hall := forall₂_of_mapM hx
  clear hx
  induction hall with
  | nil => simp
  | cons hv _ ih => exact List.forall_mem_cons.mpr ⟨⟨_, coerce_representation hv⟩, ih⟩

/-- Numbers resolve as the values that they are read from: to the same family, with the same
lines. -/
theorem resolve_coerced {args : List Value} {xs : List Number}
    (hx : args.mapM (Value.coerce P) = .ok xs) :
    R.resolve P (xs.map .number) = R.resolve P args := by
  refine resolveFrom_congr rfl (List.forall₂_map_left_iff.mpr ?_) none
  refine (forall₂_of_mapM hx).flip.imp fun x v hv => ?_
  exact familyFor_congr (v := .number x) (coerce_representation hv).symm

end Resolver

end TowerCalc
