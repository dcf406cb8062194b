import TowerCalc.Proofs.Resolution

/-!
# Strict and lenient resolvers in lockstep

A strict and a lenient resolver over the same families read the same values with the
same dominant family, until they meet a family that is incomparable with it. There
the strict one refuses; the lenient one writes a line and goes on, and may still fail
at a later value.

## Results

* `resolveFrom_append`: a resolution that leaves no line behind goes on as if it
  had begun with the family it found.
* `meets_of_log_eq_cons`: the first line of a log is written at the first meeting.
* `strict_refuses_iff_lenient_logs`: the strict resolver refuses if and only if the
  lenient one logs, and names the families of its first line.
-/
namespace TowerCalc

/-- Failures of the ambiguous kind name two families that may not win. -/
theorem Failure.kind_eq_ambiguousResolution_iff {e : Failure} :
    e.kind = .ambiguousResolution ↔ ∃ k o, e = .ambiguous k o := by
  cases e <;> simp [kind]

namespace Resolver

variable {R : Resolver} {P : Precision}

/-- The dominant family `k` meets the family `o` of some value, which is incomparable
with it, and before that value there was no such meeting. -/
def MeetsFirst (R : Resolver) (P : Precision) (vs : List Value) (k o : Family) : Prop :=
  ∃ before v after, vs = before ++ v :: after ∧
    R.resolve P before = ⟨.ok (some k), []⟩ ∧ R.familyFor P v = .ok o ∧ k.Incomparable o

/-- After values that leave no line a resolution goes on with the family found so far. -/
theorem resolveFrom_append {dominant found : Option Family} {before : List Value}
    (h : resolveFrom R P dominant before = ⟨.ok found, []⟩) (after : List Value) :
    resolveFrom R P dominant (before ++ after) = resolveFrom R P found after := by
  induction before generalizing dominant with
  | nil => cases h; rfl
  | cons v before ih =>
    cases hv : R.familyFor P v with
    | error e => rw [resolveFrom_cons_error hv] at h; cases h
    | ok f =>
      cases dominant with
      | none =>
        rw [resolveFrom_cons_none hv] at h
        rw [List.cons_append, resolveFrom_cons_none hv, ih h]
      | some d =>
        rw [resolveFrom_cons_some hv] at h
        rw [List.cons_append, resolveFrom_cons_some hv]
        split at h
        · -- a meeting leaves a refusal or a line behind
          split at h
          · cases h
          · cases congrArg Resolution.log h
        · next hdf => rw [if_neg hdf, ih h]

/-- The first line of a log is written where the dominant family first meets an
incomparable one. -/
theorem meets_of_log_eq_cons {dominant : Option Family} {vs : List Value} {line : LogLine}
    {rest : List LogLine} (h : (resolveFrom R P dominant vs).log = line :: rest) :
    ∃ before v after k o, vs = before ++ v :: after ∧
      resolveFrom R P dominant before = ⟨.ok (some k), []⟩ ∧ R.familyFor P v = .ok o ∧
      k.Incomparable o ∧ line = .keeping k o := by
  induction vs generalizing dominant with
  | nil => cases h
  | cons v vs ih =>
    cases hv : R.familyFor P v with
    | error e => rw [resolveFrom_cons_error hv] at h; cases h
    | ok f =>
      cases dominant with
      | none =>
        rw [resolveFrom_cons_none hv] at h
        obtain ⟨before, u, after, k, o, rfl, hb, hu⟩ := ih h
        exact ⟨v :: before, u, after, k, o, rfl, by rw [resolveFrom_cons_none hv, hb], hu⟩
      | some d =>
        rw [resolveFrom_cons_some hv] at h
        split at h
        · next hdf =>
          split at h
          · cases h
          · cases h
            exact ⟨[], v, vs, d, f, rfl, rfl, hv, hdf, rfl⟩
        · next hdf =>
          obtain ⟨before, u, after, k, o, rfl, hb, hu⟩ := ih h
          refine ⟨v :: before, u, after, k, o, rfl, ?_, hu⟩
          rw [resolveFrom_cons_some hv, if_neg hdf, hb]

/-- A strict resolver refuses at the first meeting, whatever values come after it. -/
theorem MeetsFirst.resolve_strict {vs : List Value} {k o : Family}
    (h : R.lenient.MeetsFirst P vs k o) (hR : R.strict = true) :
    R.resolve P vs = ⟨.error (.ambiguous k.name o.name), []⟩ := by
  obtain ⟨before, v, after, rfl, hb, hv, hko⟩ := h
  have hb' : resolveFrom R P none before = ⟨.ok (some k), []⟩ := by
    rw [resolveFrom_strict hR]
    rw [resolve] at hb
    rw [hb]
    rfl
  have hv' : R.familyFor P v = .ok o := hv
  rw [resolve, resolveFrom_append hb', resolveFrom_cons_some hv', if_pos hko, if_pos hR]

/-- Where a lenient resolver writes no line a strict one does the same. -/
theorem resolve_strict_of_log_eq_nil {vs : List Value} (hR : R.strict = true)
    (h : (R.lenient.resolve P vs).log = []) : R.resolve P vs = R.lenient.resolve P vs := by
  rw [resolve] at h
  rw [resolve, resolveFrom_strict hR, Resolution.strictly, h, resolve]

/-- **Strictness refuses at the first line.** Over any families and any values, those
without a family among them, the strict resolver refuses them as ambiguous if and only
if the lenient one logs a family that it keeps, be it that it succeeds or fails. The
refusal names the families of the first such line, which are the first incomparable
ones to meet. If there is no line, both find the same family or fail in the same way. -/
theorem strict_refuses_iff_lenient_logs (families : Representation → Option Family)
    (P : Precision) (vs : List Value) :
    let strict := (Resolver.mk families true).resolve P vs
    let lenient := (Resolver.mk families false).resolve P vs
    ((∃ e, strict.result = .error e ∧ e.kind = .ambiguousResolution) ↔
      ∃ k o, .keeping k o ∈ lenient.log) ∧
    (∀ line rest, lenient.log = line :: rest → ∃ k o, line = .keeping k o ∧
      strict.result = .error (.ambiguous k.name o.name) ∧
      (Resolver.mk families false).MeetsFirst P vs k o) ∧
    (lenient.log = [] → strict.result = lenient.result) := by
  intro strict lenient
  have first : ∀ line rest, lenient.log = line :: rest → ∃ k o, line = .keeping k o ∧
      strict.result = .error (.ambiguous k.name o.name) ∧
      (Resolver.mk families false).MeetsFirst P vs k o := by
    intro line rest hl
    obtain ⟨before, v, after, k, o, hvs, hb, hv, hko, rfl⟩ := meets_of_log_eq_cons hl
    have hm : (Resolver.mk families false).MeetsFirst P vs k o :=
      ⟨before, v, after, hvs, hb, hv, hko⟩
    have hs := MeetsFirst.resolve_strict (R := ⟨families, true⟩) hm rfl
    exact ⟨k, o, rfl, congrArg Resolution.result hs, hm⟩
  have silent : lenient.log = [] → strict.result = lenient.result := fun hl =>
    congrArg Resolution.result (resolve_strict_of_log_eq_nil (R := ⟨families, true⟩) rfl hl)
  refine ⟨⟨?_, ?_⟩, first, silent⟩
  · rintro ⟨e, he, hk⟩
    obtain ⟨k, o, rfl⟩ := Failure.kind_eq_ambiguousResolution_iff.mp hk
    cases hl : lenient.log with
    | nil =>
      rw [silent hl] at he
      exact absurd he (resolveFrom_ne_ambiguous rfl none vs k o)
    | cons line rest =>
      obtain ⟨k, o, rfl, -, -⟩ := first line rest hl
      exact ⟨k, o, List.mem_cons_self⟩
  · rintro ⟨k, o, hm⟩
    obtain ⟨line, rest, hl⟩ := List.exists_cons_of_ne_nil (List.ne_nil_of_mem hm)
    obtain ⟨k, o, -, hs, -⟩ := first line rest hl
    exact ⟨_, hs, rfl⟩

/-- The real one and a half of another family, before the imaginary unit, for which
there is no family: the lenient resolver logs and then fails at the unit, the strict one
does not come so far. -/
theorem strict_refuses_before_missing_family :
    let families := ((otherReal false).set .complex none).families
    let vs := [Number.real .one, .rational (1 / 2), .complex ⟨.zero, .one⟩].map Value.number
    let lenient := (Resolver.mk families false).resolve .default vs
    let strict := (Resolver.mk families true).resolve .default vs
    lenient.log = [.keeping ⟨"RealFunctions", .real⟩ ⟨"OtherReal", .real⟩] ∧
      lenient.result = .error (.noFamily .complex) ∧
      strict.result = .error (.ambiguous "RealFunctions" "OtherReal") := by
  intro families vs lenient strict
  have hl : lenient.log = [.keeping ⟨"RealFunctions", .real⟩ ⟨"OtherReal", .real⟩] := rfl
  refine ⟨hl, rfl, ?_⟩
  obtain ⟨-, first, -⟩ := strict_refuses_iff_lenient_logs families .default vs
  obtain ⟨k, o, hko, hs, -⟩ := first _ _ hl
  cases hko
  exact hs

end Resolver

end TowerCalc
