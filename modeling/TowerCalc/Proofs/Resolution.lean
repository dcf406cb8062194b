import TowerCalc.Resolver
import Mathlib.Data.List.Basic

/-!
# What resolution finds

A resolution reads its values one by one and keeps the dominant family so far.
On values that all have a family its outcome depends on the list of these
families only: `dominant?` is the family that stays, `clashes` are the meetings
of the dominant family with incomparable ones, in order.

## Results

* `resolveFrom_strict`: a strict resolution is the other one with the first line
  of the log made a refusal, at any dominant family and for any values.
* `resolve_lenient`: the outcome of a resolution that is not strict.
* `firstMaximal_dominant`: the family that stays is the first of the highest rank.
* `resolve_earliest_maximal`: the same of resolutions, what follows for permuted
  values, and that the standard families never clash.
-/
namespace TowerCalc

namespace Family

/-- The dominant family after `f` is met. -/
def supersede (d f : Family) : Family := if d.rank < f.rank then f else d

/-- The dominant family after all of `fs` are met. -/
def dominant (d : Family) (fs : List Family) : Family := fs.foldl supersede d

/-- The meetings of the dominant family, `d` at first, with incomparable ones. -/
def clashesFrom : Family → List Family → List (Family × Family)
  | _, [] => []
  | d, f :: fs =>
    if d.Incomparable f then (d, f) :: clashesFrom d fs else clashesFrom (d.supersede f) fs

def dominant? : List Family → Option Family
  | [] => none
  | d :: fs => some (d.dominant fs)

def clashes : List Family → List (Family × Family)
  | [] => []
  | d :: fs => d.clashesFrom fs

/-- `f` is the first of the families that have the highest rank among them. -/
inductive FirstMaximal : List Family → Family → Prop
  | head {f : Family} {fs : List Family} (h : ∀ g ∈ fs, g.rank ≤ f.rank) : FirstMaximal (f :: fs) f
  | tail {d f : Family} {fs : List Family} (h : d.rank < f.rank) (t : FirstMaximal fs f) :
    FirstMaximal (d :: fs) f

theorem Incomparable.supersede {d f : Family} (h : d.Incomparable f) : d.supersede f = d :=
  if_neg (Nat.not_lt.mpr (Nat.le_of_eq h.1.symm))

/-! ## The family that stays -/

theorem FirstMaximal.mem {fs : List Family} {f : Family} (h : FirstMaximal fs f) : f ∈ fs := by
  induction h with
  | head => exact List.mem_cons_self
  | tail _ _ ih => exact List.mem_cons_of_mem _ ih

theorem FirstMaximal.rank_le {fs : List Family} {f g : Family} (h : FirstMaximal fs f)
    (hg : g ∈ fs) : g.rank ≤ f.rank := by
  induction h with
  | head hle =>
    rcases List.mem_cons.mp hg with rfl | hg
    · exact Nat.le_refl _
    · exact hle g hg
  | tail hlt _ ih =>
    rcases List.mem_cons.mp hg with rfl | hg
    · exact Nat.le_of_lt hlt
    · exact ih hg

theorem firstMaximal_dominant (d : Family) (fs : List Family) :
    FirstMaximal (d :: fs) (d.dominant fs) := by
  induction fs generalizing d with
  | nil => exact .head (by simp)
  | cons f fs ih =>
    change FirstMaximal _ ((d.supersede f).dominant fs)
    unfold supersede
    split
    · next hlt =>
      have hf := ih f
      exact .tail (Nat.lt_of_lt_of_le hlt (hf.rank_le List.mem_cons_self)) hf
    · next hle =>
      -- `d` stays: it is the first maximal one unless something after `f` is
      have hm := ih d
      generalize d.dominant fs = m at hm
      cases hm with
      | head h =>
        refine .head fun g hg => ?_
        rcases List.mem_cons.mp hg with rfl | hg
        · omega
        · exact h g hg
      | tail h t => exact .tail h (.tail (by omega) t)

theorem rank_le_dominant {d f : Family} {fs : List Family} (h : f ∈ d :: fs) :
    f.rank ≤ (d.dominant fs).rank :=
  (firstMaximal_dominant d fs).rank_le h

theorem firstMaximal_of_dominant? {fs : List Family} {f : Family} (h : dominant? fs = some f) :
    FirstMaximal fs f := by
  cases fs with
  | nil => cases h
  | cons d fs => cases h; exact firstMaximal_dominant d fs

theorem dominant?_eq_none_iff {fs : List Family} : dominant? fs = none ↔ fs = [] := by
  cases fs <;> simp [dominant?]

/-! ## Clashes -/

theorem mem_clashesFrom {d k o : Family} {fs : List Family} (h : (k, o) ∈ d.clashesFrom fs) :
    k.Incomparable o ∧ k ∈ d :: fs ∧ o ∈ fs := by
  induction fs generalizing d with
  | nil => cases h
  | cons f fs ih =>
    unfold clashesFrom at h
    split at h
    · next hdf =>
      rcases List.mem_cons.mp h with he | h
      · cases he; exact ⟨hdf, by simp, by simp⟩
      · obtain ⟨hko, hk, ho⟩ := ih h
        simp only [List.mem_cons] at hk ⊢
        exact ⟨hko, by tauto, .inr ho⟩
    · obtain ⟨hko, hk, ho⟩ := ih h
      unfold supersede at hk
      simp only [List.mem_cons] at hk ⊢
      refine ⟨hko, ?_, .inr ho⟩
      split at hk <;> tauto

theorem mem_clashes {k o : Family} {fs : List Family} (h : (k, o) ∈ clashes fs) :
    k.Incomparable o ∧ k ∈ fs ∧ o ∈ fs := by
  cases fs with
  | nil => cases h
  | cons d fs =>
    obtain ⟨hko, hk, ho⟩ := mem_clashesFrom h
    exact ⟨hko, hk, List.mem_cons_of_mem _ ho⟩

theorem clashes_eq_nil {fs : List Family} (h : ∀ f ∈ fs, ∀ g ∈ fs, ¬ f.Incomparable g) :
    clashes fs = [] := by
  refine List.eq_nil_iff_forall_not_mem.mpr fun ⟨k, o⟩ hm => ?_
  obtain ⟨hko, hk, ho⟩ := mem_clashes hm
  exact h k hk o ho hko

/-- Among families that are comparable the highest rank belongs to one. -/
theorem dominant?_perm {fs gs : List Family} (hp : fs.Perm gs)
    (h : ∀ f ∈ fs, ∀ g ∈ fs, ¬ f.Incomparable g) : dominant? fs = dominant? gs := by
  cases hf : dominant? fs with
  | none =>
    rw [dominant?_eq_none_iff] at hf
    subst hf
    rw [List.nil_perm.mp hp]; rfl
  | some f =>
    have hff := firstMaximal_of_dominant? hf
    cases hg : dominant? gs with
    | none =>
      rw [dominant?_eq_none_iff] at hg
      subst hg
      rw [List.perm_nil.mp hp] at hf; cases hf
    | some g =>
      have hgg := firstMaximal_of_dominant? hg
      have h1 := hff.rank_le (hp.mem_iff.mpr hgg.mem)
      have h2 := hgg.rank_le (hp.mem_iff.mp hff.mem)
      by_contra hne
      exact h f hff.mem g (hp.mem_iff.mpr hgg.mem) ⟨by omega, fun e => hne (e ▸ rfl)⟩

/-- The standard families are comparable: each representation has one. -/
theorem standard_not_incomparable (r s : Representation) :
    ¬ (standard r).Incomparable (standard s) := by
  intro ⟨hr, hne⟩
  refine hne (congrArg standard (Representation.rank_injective ?_))
  simpa only [rank, standard_representation] using hr

end Family

/-- What a strict resolver makes of a resolution: the first line of the log becomes
a refusal, and nothing after it happens. -/
def Resolution.strictly (r : Resolution) : Resolution :=
  match r.log with
  | .keeping k o :: _ => ⟨.error (.ambiguous k.name o.name), []⟩
  | _ => r

/-- A value without a representation is an unsupported argument. -/
theorem Value.representation?_error_kind {P : Precision} {v : Value} {e : Failure}
    (h : v.representation? P = .error e) : e.kind = .unsupportedArgument := by
  unfold representation? at h
  split at h <;> cases h <;> rfl

namespace Resolver

variable {R : Resolver} {P : Precision}

def lenient (R : Resolver) : Resolver := { R with strict := false }

/-- Some value among `vs` has the family `f`. -/
def Uses (R : Resolver) (P : Precision) (vs : List Value) (f : Family) : Prop :=
  ∃ v ∈ vs, R.familyFor P v = .ok f

/-- Every one of the values has a family. -/
def Serves (R : Resolver) (P : Precision) (vs : List Value) : Prop :=
  ∀ v ∈ vs, ∃ f, R.familyFor P v = .ok f

/-- The families of the values that have one, in order. -/
def familiesOf (R : Resolver) (P : Precision) (vs : List Value) : List Family :=
  vs.filterMap fun v => (R.familyFor P v).toOption

/-- No two families among those of the values have one rank. -/
def Comparable (R : Resolver) (P : Precision) (vs : List Value) : Prop :=
  ∀ f g, R.Uses P vs f → R.Uses P vs g → ¬ f.Incomparable g

/-- `f` is the family of the earliest value whose family has the highest rank. -/
def EarliestMaximal (R : Resolver) (P : Precision) (vs : List Value) (f : Family) : Prop :=
  ∃ (i : Nat) (v : Value), vs[i]? = some v ∧ R.familyFor P v = .ok f ∧
    ∀ (j : Nat) (u : Value) (g : Family), vs[j]? = some u → R.familyFor P u = .ok g →
      (g.rank ≤ f.rank ∧ (j < i → g.rank < f.rank))

theorem familiesOf_cons {v : Value} {f : Family} {vs : List Value}
    (h : R.familyFor P v = .ok f) : R.familiesOf P (v :: vs) = f :: R.familiesOf P vs := by
  simp [familiesOf, h, Except.toOption]

theorem mem_familiesOf {vs : List Value} {f : Family} :
    f ∈ R.familiesOf P vs ↔ R.Uses P vs f := by
  simp only [familiesOf, Uses, List.mem_filterMap]
  refine exists_congr fun v => and_congr_right fun _ => ?_
  cases R.familyFor P v <;> simp [Except.toOption]

theorem Uses.perm {vs ws : List Value} {f : Family} (hp : vs.Perm ws) (h : R.Uses P vs f) :
    R.Uses P ws f := by
  obtain ⟨v, hv, hf⟩ := h
  exact ⟨v, hp.mem_iff.mp hv, hf⟩

theorem Serves.perm {vs ws : List Value} (hp : vs.Perm ws) (h : R.Serves P vs) :
    R.Serves P ws := fun v hv => h v (hp.mem_iff.mpr hv)

theorem Serves.tail {v : Value} {vs : List Value} (h : R.Serves P (v :: vs)) : R.Serves P vs :=
  fun u hu => h u (List.mem_cons_of_mem _ hu)

theorem familyFor_eq_ok_iff {v : Value} {f : Family} :
    R.familyFor P v = .ok f ↔ ∃ r, v.representation? P = .ok r ∧ R.families r = some f := by
  unfold familyFor
  cases v.representation? P with
  | error e => simp [bind, Except.bind]
  | ok r => cases hf : R.families r <;> simp [bind, Except.bind, pure, Except.pure, throw, throwThe,
      MonadExceptOf.throw, hf]

/-- A value without a family is an unsupported argument. -/
theorem familyFor_error_kind {v : Value} {e : Failure} (h : R.familyFor P v = .error e) :
    e.kind = .unsupportedArgument := by
  unfold familyFor at h
  cases hr : v.representation? P with
  | error e' => rw [hr] at h; cases h; exact Value.representation?_error_kind hr
  | ok r =>
    rw [hr] at h
    simp only [bind, Except.bind] at h
    split at h <;> cases h
    rfl

/-- Where every representation has a family, numbers have one. -/
theorem serves_numbers (h : ∀ r, ∃ f, R.families r = some f) (xs : List Number) :
    R.Serves P (xs.map .number) := by
  intro v hv
  obtain ⟨x, -, rfl⟩ := List.mem_map.mp hv
  obtain ⟨f, hf⟩ := h x.representation
  exact ⟨f, familyFor_eq_ok_iff.mpr ⟨_, rfl, hf⟩⟩

/-! ## One step -/

section Step
variable {v : Value} {f d : Family} {vs : List Value}

theorem resolveFrom_cons_error {e : Failure} {dominant : Option Family}
    (h : R.familyFor P v = .error e) :
    resolveFrom R P dominant (v :: vs) = ⟨.error e, []⟩ := by
  cases dominant <;> simp only [resolveFrom, h]

theorem resolveFrom_cons_none (h : R.familyFor P v = .ok f) :
    resolveFrom R P none (v :: vs) = resolveFrom R P (some f) vs := by
  simp only [resolveFrom, h]

theorem resolveFrom_cons_some (h : R.familyFor P v = .ok f) :
    resolveFrom R P (some d) (v :: vs) =
      if d.Incomparable f then
        if R.strict then ⟨.error (.ambiguous d.name f.name), []⟩
        else (resolveFrom R P (some d) vs).after (.keeping d f)
      else resolveFrom R P (some (d.supersede f)) vs := by
  simp only [resolveFrom, h, Family.supersede]
  by_cases hi : d.Incomparable f
  · simp only [if_neg (Nat.not_lt.mpr (Nat.le_of_eq hi.1.symm)), if_pos hi]
  · simp only [if_neg hi]
    split <;> rfl

end Step

/-! ## Whole runs -/

/-- Strictness changes a resolution at the first line of its log and nowhere else. -/
theorem resolveFrom_strict (hR : R.strict = true) (dominant : Option Family) (vs : List Value) :
    resolveFrom R P dominant vs = (resolveFrom R.lenient P dominant vs).strictly := by
  induction vs generalizing dominant with
  | nil => rfl
  | cons v vs ih =>
    have hv : R.lenient.familyFor P v = R.familyFor P v := rfl
    cases h : R.familyFor P v with
    | error e => rw [resolveFrom_cons_error h, resolveFrom_cons_error (hv.trans h)]; rfl
    | ok f =>
      cases dominant with
      | none => rw [resolveFrom_cons_none h, resolveFrom_cons_none (hv.trans h), ih]
      | some d =>
        rw [resolveFrom_cons_some h, resolveFrom_cons_some (hv.trans h), hR]
        split
        · rfl
        · exact ih _

/-- The log tells of meetings with incomparable families and of nothing else. -/
theorem mem_log_resolveFrom {dominant : Option Family} {vs : List Value} {line : LogLine}
    (h : line ∈ (resolveFrom R P dominant vs).log) :
    ∃ k o, line = .keeping k o ∧ k.Incomparable o ∧ (dominant = some k ∨ R.Uses P vs k) ∧
      R.Uses P vs o := by
  induction vs generalizing dominant with
  | nil => cases h
  | cons v vs ih =>
    have later {f : Family} (hf : R.Uses P vs f) : R.Uses P (v :: vs) f :=
      hf.imp fun u hu => ⟨List.mem_cons_of_mem _ hu.1, hu.2⟩
    cases hv : R.familyFor P v with
    | error e => rw [resolveFrom_cons_error hv] at h; cases h
    | ok f =>
      have here : R.Uses P (v :: vs) f := ⟨v, List.mem_cons_self, hv⟩
      cases dominant with
      | none =>
        rw [resolveFrom_cons_none hv] at h
        obtain ⟨k, o, hl, hko, hk, ho⟩ := ih h
        refine ⟨k, o, hl, hko, .inr ?_, later ho⟩
        rcases hk with hk | hk
        · cases hk; exact here
        · exact later hk
      | some d =>
        rw [resolveFrom_cons_some hv] at h
        split at h
        · next hdf =>
          split at h
          · cases h
          · rcases List.mem_cons.mp h with rfl | h
            · exact ⟨d, f, rfl, hdf, .inl rfl, here⟩
            · obtain ⟨k, o, hl, hko, hk, ho⟩ := ih h
              exact ⟨k, o, hl, hko, hk.imp_right later, later ho⟩
        · obtain ⟨k, o, hl, hko, hk, ho⟩ := ih h
          refine ⟨k, o, hl, hko, ?_, later ho⟩
          rcases hk with hk | hk
          · unfold Family.supersede at hk
            split at hk <;> cases hk
            · exact .inr here
            · exact .inl rfl
          · exact .inr (later hk)

/-- A resolver that is not strict refuses no list of values as ambiguous. -/
theorem resolveFrom_ne_ambiguous (hR : R.strict = false) (dominant : Option Family)
    (vs : List Value) (k o : String) :
    (resolveFrom R P dominant vs).result ≠ .error (.ambiguous k o) := by
  induction vs generalizing dominant with
  | nil => simp [resolveFrom]
  | cons v vs ih =>
    cases hv : R.familyFor P v with
    | error e =>
      rw [resolveFrom_cons_error hv]
      intro he
      cases he
      cases familyFor_error_kind hv
    | ok f =>
      cases dominant with
      | none => rw [resolveFrom_cons_none hv]; exact ih _
      | some d =>
        rw [resolveFrom_cons_some hv, hR]
        split
        · exact ih _
        · exact ih _

/-- Lists of served values resolve to the first maximal family; each clash is logged. -/
theorem resolveFrom_lenient (hR : R.strict = false) (d : Family) {vs : List Value}
    (h : R.Serves P vs) :
    resolveFrom R P (some d) vs = ⟨.ok (some (d.dominant (R.familiesOf P vs))),
      (d.clashesFrom (R.familiesOf P vs)).map fun c => .keeping c.1 c.2⟩ := by
  induction vs generalizing d with
  | nil => rfl
  | cons v vs ih =>
    obtain ⟨f, hf⟩ := h v List.mem_cons_self
    rw [resolveFrom_cons_some hf, familiesOf_cons hf, hR]
    change _ = Resolution.mk (.ok (some ((d.supersede f).dominant _))) _
    unfold Family.clashesFrom
    split
    · next hdf => rw [hdf.supersede, ih d h.tail]; rfl
    · exact ih _ h.tail

theorem resolve_lenient (hR : R.strict = false) {vs : List Value} (h : R.Serves P vs) :
    R.resolve P vs = ⟨.ok (Family.dominant? (R.familiesOf P vs)),
      (Family.clashes (R.familiesOf P vs)).map fun c => .keeping c.1 c.2⟩ := by
  cases vs with
  | nil => rfl
  | cons v vs =>
    obtain ⟨f, hf⟩ := h v List.mem_cons_self
    rw [resolve, resolveFrom_cons_none hf, familiesOf_cons hf]
    exact resolveFrom_lenient hR f h.tail

/-- Without clashes strictness makes no difference. -/
theorem resolve_of_clashes_eq_nil {vs : List Value} (h : R.Serves P vs)
    (hc : Family.clashes (R.familiesOf P vs) = []) :
    R.resolve P vs = ⟨.ok (Family.dominant? (R.familiesOf P vs)), []⟩ := by
  have hl := resolve_lenient (R := R.lenient) rfl h
  rw [show R.lenient.familiesOf P vs = R.familiesOf P vs from rfl, hc] at hl
  cases hR : R.strict with
  | false => rw [resolve_lenient hR h, hc]; rfl
  | true =>
    rw [resolve, resolveFrom_strict hR]
    rw [resolve] at hl
    rw [hl]
    rfl

theorem familiesOf_perm {vs ws : List Value} (hp : vs.Perm ws) :
    (R.familiesOf P vs).Perm (R.familiesOf P ws) := hp.filterMap _

theorem Comparable.clashes_eq_nil {vs : List Value} (h : R.Comparable P vs) :
    Family.clashes (R.familiesOf P vs) = [] :=
  Family.clashes_eq_nil fun f hf g hg => h f g (mem_familiesOf.mp hf) (mem_familiesOf.mp hg)

/-- The first maximal family of served values belongs to the earliest value of maximal rank. -/
theorem earliestMaximal_of_firstMaximal {vs : List Value} {f : Family} (h : R.Serves P vs)
    (hf : Family.FirstMaximal (R.familiesOf P vs) f) : R.EarliestMaximal P vs f := by
  induction vs with
  | nil => cases hf
  | cons v vs ih =>
    obtain ⟨d, hd⟩ := h v List.mem_cons_self
    rw [familiesOf_cons hd] at hf
    have used {j : Nat} {u : Value} {g : Family} (hu : vs[j]? = some u)
        (hg : R.familyFor P u = .ok g) : g ∈ R.familiesOf P vs :=
      mem_familiesOf.mpr ⟨u, List.mem_of_getElem? hu, hg⟩
    cases hf with
    | head hle =>
      refine ⟨0, v, rfl, hd, fun j u g hu hg => ⟨?_, fun hj => absurd hj (Nat.not_lt_zero j)⟩⟩
      cases j with
      | zero => cases hu; rw [hd] at hg; cases hg; exact Nat.le_refl _
      | succ j => exact hle g (used hu hg)
    | tail hlt t =>
      obtain ⟨i, w, hi, hw, hmax⟩ := ih h.tail t
      refine ⟨i + 1, w, hi, hw, fun j u g hu hg => ?_⟩
      cases j with
      | zero =>
        cases hu
        rw [hd] at hg
        cases hg
        exact ⟨Nat.le_of_lt hlt, fun _ => hlt⟩
      | succ j =>
        obtain ⟨h1, h2⟩ := hmax j u g hu hg
        exact ⟨h1, fun hj => h2 (by omega)⟩

/-! ## Comparable families -/

/-- Comparable families leave a log empty, whatever else is among the values. -/
theorem Comparable.log_eq_nil {vs : List Value} (h : R.Comparable P vs) :
    (R.resolve P vs).log = [] := by
  refine List.eq_nil_iff_forall_not_mem.mpr fun line hl => ?_
  obtain ⟨k, o, -, hko, hk, ho⟩ := mem_log_resolveFrom hl
  rcases hk with hk | hk
  · cases hk
  · exact h k o hk ho hko

/-- Comparable families leave a strict resolver nothing to refuse. -/
theorem Comparable.resolve_strict {vs : List Value} (hR : R.strict = true)
    (h : R.Comparable P vs) : R.resolve P vs = R.lenient.resolve P vs := by
  have hl : (R.lenient.resolve P vs).log = [] := Comparable.log_eq_nil h
  rw [resolve, resolveFrom_strict hR]
  rw [resolve] at hl ⊢
  rw [Resolution.strictly, hl]

theorem Comparable.resolve_ne_ambiguous {vs : List Value} (h : R.Comparable P vs)
    (k o : String) : (R.resolve P vs).result ≠ .error (.ambiguous k o) := by
  cases hR : R.strict with
  | false => exact resolveFrom_ne_ambiguous hR none vs k o
  | true => rw [h.resolve_strict hR]; exact resolveFrom_ne_ambiguous rfl none vs k o

theorem Comparable.perm {vs ws : List Value} (hp : vs.Perm ws) (h : R.Comparable P vs) :
    R.Comparable P ws := fun f g hf hg => h f g (hf.perm hp.symm) (hg.perm hp.symm)

/-- Comparable families give every permutation of the values the same outcome. -/
theorem Comparable.resolve_perm {vs ws : List Value} (h : R.Comparable P vs)
    (hs : R.Serves P vs) (hp : ws.Perm vs) :
    R.resolve P ws = ⟨.ok (Family.dominant? (R.familiesOf P vs)), []⟩ := by
  have hd : Family.dominant? (R.familiesOf P vs) = Family.dominant? (R.familiesOf P ws) :=
    Family.dominant?_perm (familiesOf_perm hp.symm) fun f hf g hg =>
      h f g (mem_familiesOf.mp hf) (mem_familiesOf.mp hg)
  rw [hd]
  exact resolve_of_clashes_eq_nil (hs.perm hp.symm) (h.perm hp.symm).clashes_eq_nil

theorem comparable_standard (strict : Bool) (vs : List Value) :
    (standard strict).Comparable P vs := by
  rintro f g ⟨u, -, hu⟩ ⟨v, -, hv⟩
  obtain ⟨r, -, hr⟩ := familyFor_eq_ok_iff.mp hu
  obtain ⟨s, -, hs⟩ := familyFor_eq_ok_iff.mp hv
  cases hr
  cases hs
  exact Family.standard_not_incomparable r s

/-! ## The earliest of the highest rank -/

theorem resolve_eq_none_iff (hR : R.strict = false) {vs : List Value} (h : R.Serves P vs) :
    (R.resolve P vs).result = .ok none ↔ vs = [] := by
  rw [resolve_lenient hR h]
  cases vs with
  | nil => exact ⟨fun _ => rfl, fun _ => rfl⟩
  | cons v vs =>
    obtain ⟨f, hf⟩ := h v List.mem_cons_self
    simp [familiesOf_cons hf, Family.dominant?]

theorem exists_resolve_earliestMaximal (hR : R.strict = false) {vs : List Value}
    (h : R.Serves P vs) (hne : vs ≠ []) :
    ∃ f, (R.resolve P vs).result = .ok (some f) ∧ R.EarliestMaximal P vs f := by
  obtain ⟨v, vs, rfl⟩ := List.exists_cons_of_ne_nil hne
  obtain ⟨d, hd⟩ := h v List.mem_cons_self
  have hdom : R.familiesOf P (v :: vs) = d :: R.familiesOf P vs := familiesOf_cons hd
  refine ⟨d.dominant (R.familiesOf P vs), ?_, earliestMaximal_of_firstMaximal h ?_⟩
  · rw [resolve_lenient hR h, hdom]; rfl
  · rw [hdom]; exact Family.firstMaximal_dominant _ _

/-- **The earliest of the highest rank.** A resolver that is not strict finds the
family of the earliest value of maximal rank, and none for no values. Comparable
families give every permutation of the values one outcome, strict or not. The
standard families are comparable: with them strictness makes no difference at all. -/
theorem resolve_earliest_maximal (P : Precision) :
    (∀ (R : Resolver) (vs : List Value), R.strict = false → R.Serves P vs →
      ((R.resolve P vs).result = .ok none ↔ vs = []) ∧
      (vs ≠ [] → ∃ f, (R.resolve P vs).result = .ok (some f) ∧ R.EarliestMaximal P vs f)) ∧
    (∀ (R : Resolver) (vs : List Value), R.Serves P vs → R.Comparable P vs →
      ∃ o, ∀ (strict : Bool) (ws : List Value), ws.Perm vs →
        ({ R with strict := strict } : Resolver).resolve P ws = ⟨.ok o, []⟩) ∧
    ∀ vs : List Value, (standard true).resolve P vs = (standard false).resolve P vs ∧
      ∀ strict, ((standard strict).resolve P vs).log = [] ∧
        ∀ k o, ((standard strict).resolve P vs).result ≠ .error (.ambiguous k o) := by
  refine ⟨fun R vs hR h => ?_, fun R vs h hc => ?_, fun vs => ?_⟩
  · exact ⟨resolve_eq_none_iff hR h, exists_resolve_earliestMaximal hR h⟩
  · refine ⟨Family.dominant? (R.familiesOf P vs), fun strict ws hp => ?_⟩
    -- neither the families of the values nor their comparability ask for strictness
    exact Comparable.resolve_perm (R := { R with strict := strict }) hc h hp
  · refine ⟨(comparable_standard true vs).resolve_strict rfl, fun strict => ?_⟩
    have hc := comparable_standard (P := P) strict vs
    exact ⟨hc.log_eq_nil, hc.resolve_ne_ambiguous⟩

/-- The standard families, but the rationals have another family of real rank. -/
def otherReal (strict : Bool) : Resolver :=
  (standard strict).set .rational (some ⟨"OtherReal", .real⟩)

theorem serves_otherReal (strict : Bool) (xs : List Number) :
    (otherReal strict).Serves P (xs.map .number) :=
  serves_numbers (fun r => by cases r <;> exact ⟨_, rfl⟩) xs

/-- Seven, one half and the real one: the last two have incomparable families here,
and comparable ones among the standard families. -/
theorem resolve_earliest_maximal_mixed :
    let vs := [Number.integer 7, .rational (1 / 2), .real .one].map Value.number
    ((otherReal false).Serves .default vs ∧ vs ≠ [] ∧
      ∃ f, ((otherReal false).resolve .default vs).result = .ok (some f) ∧
        (otherReal false).EarliestMaximal .default vs f) ∧
    (standard true).Serves .default vs ∧ (standard true).Comparable .default vs ∧
      ∃ o, ∀ (strict : Bool) (ws : List Value), ws.Perm vs →
        (standard strict).resolve .default ws = ⟨.ok o, []⟩ := by
  intro vs
  have hs : (otherReal false).Serves .default vs := serves_otherReal false _
  have hn : (standard true).Serves .default vs := serves_numbers (fun r => ⟨_, rfl⟩) _
  obtain ⟨h1, h2, -⟩ := resolve_earliest_maximal .default
  exact ⟨⟨hs, by simp [vs], (h1 _ _ rfl hs).2 (by simp [vs])⟩, hn, comparable_standard _ _,
    h2 _ _ hn (comparable_standard _ _)⟩

end Resolver

end TowerCalc
