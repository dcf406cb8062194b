import TowerCalc.Proofs.Resolution

/-!
# Strict resolution and the order of the values

A strict resolver compares each family with the dominant one only. Incomparable
families below the highest rank clash unless a wider value comes before them, so
that the order of the values can decide whether they are refused.

## Results

* `refuses_iff`: a strict resolver refuses served values exactly if there is a clash.
* `clashes_ne_nil_of_maximal`, `clashesFrom_eq_nil`: incomparable families of the
  highest rank clash in every order, lower ones hide behind the highest.
* `strict_order_independent_iff`: the values whose order does not matter.
* `strict_order_matters`: three values whose order does.
-/
namespace TowerCalc

namespace Family

/-- Of two families that are not incomparable only the one that stays has its rank. -/
theorem eq_supersede {d f g : Family} (hdf : ¬ d.Incomparable f) (hg : g = d ∨ g = f)
    (hle : (d.supersede f).rank ≤ g.rank) : g = d.supersede f := by
  unfold supersede at hle ⊢
  by_cases hlt : d.rank < f.rank
  · rw [if_pos hlt] at hle ⊢
    rcases hg with rfl | rfl
    · omega
    · rfl
  · rw [if_neg hlt] at hle ⊢
    rcases hg with rfl | rfl
    · rfl
    · by_contra hne
      exact hdf ⟨by omega, Ne.symm hne⟩

/-- Without clashes only the dominant family has its rank. -/
theorem eq_dominant_of_clashesFrom_eq_nil {d g : Family} {fs : List Family}
    (h : d.clashesFrom fs = []) (hg : g ∈ d :: fs) (hr : (d.dominant fs).rank ≤ g.rank) :
    g = d.dominant fs := by
  induction fs generalizing d with
  | nil => simpa [dominant] using hg
  | cons f fs ih =>
    by_cases hdf : d.Incomparable f
    · rw [clashesFrom, if_pos hdf] at h; cases h
    · rw [clashesFrom, if_neg hdf] at h
      have hle : (d.supersede f).rank ≤ ((d.supersede f).dominant fs).rank :=
        rank_le_dominant List.mem_cons_self
      have hg' : g ∈ d.supersede f :: fs := by
        simp only [List.mem_cons, ← or_assoc] at hg
        rcases hg with hg | hg
        · exact eq_supersede hdf hg (Nat.le_trans hle hr) ▸ List.mem_cons_self
        · exact List.mem_cons_of_mem _ hg
      exact ih h hg' hr

/-- Incomparable families of the highest rank clash in every order. -/
theorem clashes_ne_nil_of_maximal {fs : List Family} {f g : Family} (hf : f ∈ fs) (hg : g ∈ fs)
    (hfg : f.Incomparable g) (hmax : ∀ h ∈ fs, h.rank ≤ f.rank) : clashes fs ≠ [] := by
  cases fs with
  | nil => cases hf
  | cons d fs =>
    intro hc
    have hle := hmax _ (firstMaximal_dominant d fs).mem
    have hfd : f = d.dominant fs := eq_dominant_of_clashesFrom_eq_nil hc hf hle
    have hgd : g = d.dominant fs := eq_dominant_of_clashesFrom_eq_nil hc hg (hfg.1 ▸ hle)
    exact hfg.2 (hfd.trans hgd.symm)

/-- A family that nothing else equals or exceeds in rank hides all clashes after it. -/
theorem clashesFrom_eq_nil {m : Family} {fs : List Family}
    (h : ∀ f ∈ fs, f.rank ≤ m.rank ∧ ¬ m.Incomparable f) : m.clashesFrom fs = [] := by
  induction fs with
  | nil => rfl
  | cons f fs ih =>
    obtain ⟨hle, hmf⟩ := h f List.mem_cons_self
    have hm : m.supersede f = m := if_neg (Nat.not_lt.mpr hle)
    rw [clashesFrom, if_neg hmf, hm]
    exact ih fun g hg => h g (List.mem_cons_of_mem _ hg)

end Family

namespace Resolution

/-- The values are refused as ambiguous. -/
def Refuses (r : Resolution) : Prop := ∃ k o, r.result = .error (.ambiguous k o)

/-- Both are refused as ambiguous, or both find the same family. -/
def Agrees (r s : Resolution) : Prop :=
  (r.Refuses ∧ s.Refuses) ∨ ∃ f, r.result = .ok f ∧ s.result = .ok f

theorem Agrees.refuses_iff {r s : Resolution} (h : r.Agrees s) : r.Refuses ↔ s.Refuses := by
  rcases h with ⟨hr, hs⟩ | ⟨f, hr, hs⟩
  · exact ⟨fun _ => hs, fun _ => hr⟩
  · simp [Refuses, hr, hs]

end Resolution

namespace Resolver

variable {R : Resolver} {P : Precision} {vs : List Value}

theorem refuses_iff (hR : R.strict = true) (h : R.Serves P vs) :
    (R.resolve P vs).Refuses ↔ Family.clashes (R.familiesOf P vs) ≠ [] := by
  constructor
  · intro ⟨k, o, hr⟩ hc
    rw [resolve_of_clashes_eq_nil h hc] at hr
    cases hr
  · intro hc
    obtain ⟨c, cs, hcs⟩ := List.exists_cons_of_ne_nil hc
    have hl : resolveFrom R.lenient P none vs = _ := resolve_lenient (R := R.lenient) rfl h
    rw [resolve, resolveFrom_strict hR, hl, Resolution.strictly,
      show R.lenient.familiesOf P vs = R.familiesOf P vs from rfl, hcs]
    exact ⟨_, _, rfl⟩

/-- A value can be brought to the front. -/
theorem exists_cons_perm {v : Value} (h : v ∈ vs) : ∃ ws, (v :: ws).Perm vs := by
  obtain ⟨before, after, rfl⟩ := List.append_of_mem h
  exact ⟨before ++ after, List.perm_middle.symm⟩

/-- Values of incomparable families come first in some order, and clash there. -/
theorem exists_perm_refuses (hR : R.strict = true) (h : R.Serves P vs) {f g : Family}
    (hf : R.Uses P vs f) (hg : R.Uses P vs g) (hfg : f.Incomparable g) :
    ∃ ws, ws.Perm vs ∧ (R.resolve P ws).Refuses := by
  obtain ⟨u, hu, huf⟩ := hf
  obtain ⟨v, hv, hvg⟩ := hg
  obtain ⟨ws, hws⟩ := exists_cons_perm hu
  have hv' : v ∈ ws := by
    rcases List.mem_cons.mp (hws.mem_iff.mpr hv) with rfl | hv'
    · rw [huf] at hvg; cases hvg; exact absurd rfl hfg.2
    · exact hv'
  obtain ⟨xs, hxs⟩ := exists_cons_perm hv'
  have hp : (u :: v :: xs).Perm vs := (hxs.cons u).trans hws
  refine ⟨u :: v :: xs, hp, (refuses_iff hR (h.perm hp.symm)).mpr ?_⟩
  rw [familiesOf_cons huf, familiesOf_cons hvg, Family.clashes, Family.clashesFrom, if_pos hfg]
  exact List.cons_ne_nil _ _

/-- A value whose family is above or equal to every other comes first in some order,
and hides every clash. -/
theorem exists_perm_not_refuses (hR : R.strict = true) (h : R.Serves P vs) {m : Family}
    (hm : R.Uses P vs m) (hmax : ∀ f, R.Uses P vs f → f.rank ≤ m.rank ∧ ¬ m.Incomparable f) :
    ∃ ws, ws.Perm vs ∧ ¬ (R.resolve P ws).Refuses := by
  obtain ⟨v, hv, hvm⟩ := hm
  obtain ⟨ws, hws⟩ := exists_cons_perm hv
  refine ⟨v :: ws, hws, ?_⟩
  rw [refuses_iff hR (h.perm hws.symm), familiesOf_cons hvm, not_not]
  refine Family.clashesFrom_eq_nil fun f hf => hmax f ?_
  obtain ⟨u, hu, huf⟩ := mem_familiesOf.mp hf
  exact ⟨u, hws.mem_iff.mp (List.mem_cons_of_mem _ hu), huf⟩

/-- Some family of the values has the highest rank. -/
theorem exists_maximal (h : R.Serves P vs) (hne : vs ≠ []) :
    ∃ m, R.Uses P vs m ∧ ∀ f, R.Uses P vs f → f.rank ≤ m.rank := by
  obtain ⟨v, vs, rfl⟩ := List.exists_cons_of_ne_nil hne
  obtain ⟨d, hd⟩ := h v List.mem_cons_self
  have hm := Family.firstMaximal_dominant d (R.familiesOf P vs)
  rw [← familiesOf_cons hd] at hm
  exact ⟨_, mem_familiesOf.mp hm.mem, fun f hf => hm.rank_le (mem_familiesOf.mpr hf)⟩

/-- **When the order does not matter.** The order of served values decides nothing for
a strict resolver exactly if their families are comparable, or if incomparable ones
are among those of the highest rank. -/
theorem strict_order_independent_iff (hR : R.strict = true) (h : R.Serves P vs) :
    (∀ ws, ws.Perm vs → (R.resolve P vs).Agrees (R.resolve P ws)) ↔
      R.Comparable P vs ∨ ∃ f g, R.Uses P vs f ∧ R.Uses P vs g ∧ f.Incomparable g ∧
        ∀ k, R.Uses P vs k → k.rank ≤ f.rank := by
  constructor
  · intro hall
    by_contra hno
    obtain ⟨hc, htop⟩ := not_or.mp hno
    simp only [Comparable, not_forall, not_not] at hc
    obtain ⟨f, g, hf, hg, hfg⟩ := hc
    obtain ⟨m, hm, hmax⟩ := exists_maximal h fun he => by
      obtain ⟨v, hv, -⟩ := hf; simp [he] at hv
    obtain ⟨ws, hws, hrefused⟩ := exists_perm_refuses hR h hf hg hfg
    obtain ⟨xs, hxs, hfound⟩ := exists_perm_not_refuses hR h hm fun k hk =>
      ⟨hmax k hk, fun hmk => htop ⟨m, k, hm, hk, hmk, hmax⟩⟩
    have hvs := (hall ws hws).refuses_iff.mpr hrefused
    exact hfound ((hall xs hxs).refuses_iff.mp hvs)
  · rintro (hc | ⟨f, g, hf, hg, hfg, hmax⟩) ws hp
    · exact .inr ⟨_, congrArg _ (hc.resolve_perm h (.refl _)), congrArg _ (hc.resolve_perm h hp)⟩
    · have refused {us : List Value} (hu : us.Perm vs) : (R.resolve P us).Refuses := by
        refine (refuses_iff hR (h.perm hu.symm)).mpr ?_
        refine Family.clashes_ne_nil_of_maximal (mem_familiesOf.mpr (hf.perm hu.symm))
          (mem_familiesOf.mpr (hg.perm hu.symm)) hfg fun k hk => ?_
        exact hmax k ((mem_familiesOf.mp hk).perm hu)
      exact .inl ⟨refused (.refl _), refused hp⟩

/-- A half and the real one are refused in both orders. -/
theorem strict_order_independent_reals :
    let vs := [Number.rational (1 / 2), .real .one].map Value.number
    (otherReal true).strict = true ∧ (otherReal true).Serves .default vs ∧
      ∀ ws, ws.Perm vs →
        ((otherReal true).resolve .default vs).Agrees ((otherReal true).resolve .default ws) := by
  intro vs
  have hs : (otherReal true).Serves .default vs := serves_otherReal true _
  refine ⟨rfl, hs, (strict_order_independent_iff rfl hs).mpr (.inr ?_)⟩
  refine ⟨⟨"OtherReal", .real⟩, .standard .real, ⟨_, List.mem_cons_self, rfl⟩,
    ⟨_, List.mem_cons_of_mem _ List.mem_cons_self, rfl⟩, by decide, ?_⟩
  rintro k ⟨v, hv, hk⟩
  simp only [vs, List.map_cons, List.map_nil, List.mem_cons, List.not_mem_nil, or_false] at hv
  rcases hv with rfl | rfl <;> cases hk <;> decide

/-- **The order of the values matters.** With another family of real rank for the
rationals, the real one and a half are refused in front of the imaginary unit and
not behind it. -/
theorem strict_order_matters :
    ¬ ∀ (R : Resolver) (P : Precision) (vs ws : List Value), R.strict = true → R.Serves P vs →
      ws.Perm vs → (R.resolve P vs).Agrees (R.resolve P ws) := by
  intro hall
  let reals := [Number.real .one, .rational (1 / 2)]
  let unit := [Number.complex ⟨.zero, .one⟩]
  have hp : ((reals ++ unit).map Value.number).Perm ((unit ++ reals).map Value.number) :=
    List.perm_append_comm.map _
  have hagree := hall (otherReal true) .default _ _ rfl (serves_otherReal true _) hp
  have hrefused : ((otherReal true).resolve .default ((reals ++ unit).map .number)).Refuses :=
    ⟨"RealFunctions", "OtherReal", rfl⟩
  obtain ⟨k, o, hko⟩ := hagree.refuses_iff.mpr hrefused
  cases hko

end Resolver

end TowerCalc
