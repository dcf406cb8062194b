import TowerCalc.Proofs.AdvertisedCounts
import TowerCalc.Proofs.RefusedResolutions
import TowerCalc.Session

/-!
# Changes of one family

All functions of a calculator resolve their arguments with its one resolver. A family that is
replaced or removed makes a difference to the calls that have an argument of its
representation, and to no others: two calculators that agree off one representation answer all
other calls alike as long as they draw the same noise, and go on to agree off it, whatever
functions are registered on the way. The noise stays the same as well until a call is answered
differently.

## Results

* `Resolver.AgreeOff`, `Calculator.AgreeOff`: the same but for the family of one representation.
* `Resolver.AgreeOff.resolve_eq`, `resolve_numbers`: values of other representations resolve
  alike.
* `ArgumentsAvoid`, `Step.Avoids`: calls without an argument of the representation.
* `Calculator.AgreeOff.step`, `Calculator.AgreeOff.run`: what a step, and a run, keeps.
* `Calculator.AgreeOff.step_answer`, `Calculator.AgreeOff.run_answers`: how they are answered.
* `Calculator.RefusedBefore`: what a call can be refused for before its `i`-th argument.
* `family_change`: what the replacement or the removal of a family means.
-/
namespace TowerCalc

/-! ## Resolvers -/

namespace Resolver

/-- The resolvers differ at most in the family of `r`. -/
structure AgreeOff (r : Representation) (R S : Resolver) : Prop where
  strict : R.strict = S.strict
  families : ∀ s, s ≠ r → R.families s = S.families s

variable {R S : Resolver} {P : Precision} {r : Representation}

theorem agreeOff_set (R : Resolver) (r : Representation) (f : Option Family) :
    (R.set r f).AgreeOff r R where
  strict := rfl
  families _ hs := R.set_families_of_ne f hs

namespace AgreeOff

/-- The same change keeps two resolvers in agreement. -/
theorem set (h : R.AgreeOff r S) (s : Representation) (f : Option Family) :
    (R.set s f).AgreeOff r (S.set s f) where
  strict := h.strict
  families t ht := by
    by_cases hts : t = s
    · rw [hts, set_families_self, set_families_self]
    · rw [R.set_families_of_ne f hts, S.set_families_of_ne f hts, h.families t ht]

theorem familyFor_eq (h : R.AgreeOff r S) {v : Value} (hv : v.representation? P ≠ .ok r) :
    R.familyFor P v = S.familyFor P v := by
  cases hs : v.representation? P with
  | error e => simp only [familyFor, hs, bind, Except.bind]
  | ok s =>
    have hsr : s ≠ r := fun heq => hv (heq ▸ hs)
    simp only [familyFor, hs, bind, Except.bind, h.families s hsr]

/-- Values of other representations resolve to the same family, with the same lines. -/
theorem resolve_eq (h : R.AgreeOff r S) {vs : List Value}
    (hvs : ∀ v ∈ vs, v.representation? P ≠ .ok r) : R.resolve P vs = S.resolve P vs :=
  resolveFrom_congr h.strict (List.forall₂_same.mpr fun v hv => h.familyFor_eq (hvs v hv)) none

theorem resolve_numbers (h : R.AgreeOff r S) {xs : List Number}
    (hxs : ∀ x ∈ xs, x.representation ≠ r) :
    R.resolve P (xs.map .number) = S.resolve P (xs.map .number) := by
  refine h.resolve_eq fun v hv => ?_
  obtain ⟨x, hx, rfl⟩ := List.mem_map.mp hv
  exact fun heq => hxs x hx (Except.ok.inj heq)

end AgreeOff

end Resolver

/-! ## Calls -/

/-- None of the arguments of a call is coerced to a number of the representation `r`. -/
def ArgumentsAvoid (P : Precision) (r : Representation) (args : List Value) : Prop :=
  ∀ xs, args.mapM (Value.coerce P) = .ok xs → ∀ x ∈ xs, x.representation ≠ r

/-- The step is no call with an argument of the representation `r`. -/
def Step.Avoids (P : Precision) (r : Representation) : Step → Prop
  | .call _ args => ArgumentsAvoid P r args
  | _ => True

theorem Resolver.AgreeOff.call_eq {R S : Resolver} {r : Representation} {C : Context}
    {args : List Value} (h : R.AgreeOff r S) (hargs : ArgumentsAvoid C.precision r args)
    (f : Function) : f.call R C args = f.call S C args := by
  cases f with
  | custom name answer => rfl
  | fixed name w h' =>
    cases hx : args.mapM (Value.coerce C.precision) with
    | error e => simp only [Function.call, hx]
    | ok xs =>
      simp only [Function.call, hx, Function.handle, h.resolve_numbers (hargs xs hx)]

/-! ## Calculators -/

namespace Calculator

/-- The calculators differ at most in the family of `r` and in their noise. -/
structure AgreeOff (r : Representation) (K L : Calculator) : Prop where
  settings : K.settings = L.settings
  registry : K.registry = L.registry
  resolver : K.resolver.AgreeOff r L.resolver

/-- The calculator with other noise. -/
def withNoise (K : Calculator) (noise : Nat) : Calculator := { K with seed := noise }

variable {K L : Calculator} {r : Representation}

theorem agreeOff_setFamily (K : Calculator) (r : Representation) (f : Option Family) :
    (K.setFamily r f).AgreeOff r K :=
  ⟨rfl, rfl, K.resolver.agreeOff_set r f⟩

namespace AgreeOff

theorem withNoise (h : K.AgreeOff r L) (m n : Nat) : (K.withNoise m).AgreeOff r (L.withNoise n) :=
  ⟨h.settings, h.registry, h.resolver⟩

theorem context_eq (h : K.AgreeOff r L) (hnoise : K.seed = L.seed) : K.context = L.context := by
  rw [context, context, h.settings, hnoise]

theorem call_eq (h : K.AgreeOff r L) (hnoise : K.seed = L.seed) (key : String) {args : List Value}
    (hargs : ArgumentsAvoid K.context.precision r args) : K.call key args = L.call key args := by
  rw [call, call, ← h.registry, ← h.context_eq hnoise]
  cases K.registry.function key with
  | error e => rfl
  | ok f => exact h.resolver.call_eq hargs f

/-- A call that is answered alike draws alike. -/
theorem seed_afterCall (h : K.AgreeOff r L) (hnoise : K.seed = L.seed) (key : String)
    {args : List Value} (hargs : ArgumentsAvoid K.context.precision r args) :
    (K.afterCall key args).seed = (L.afterCall key args).seed := by
  have hdraws : K.draws key args = L.draws key args := by
    rw [draws, draws, ← h.registry, ← h.call_eq hnoise key hargs]
  rw [afterCall, afterCall, hdraws]
  split
  · exact congrArg nextSeed hnoise
  · exact hnoise

theorem registerAnd (h : K.AgreeOff r L) (f : Except Failure Function) (key doc : String)
    (reply : Function → Reply) :
    (K.registerAnd f key doc reply).1 = (L.registerAnd f key doc reply).1 ∧
      (K.registerAnd f key doc reply).2.AgreeOff r (L.registerAnd f key doc reply).2 := by
  cases f with
  | error e => exact ⟨rfl, h⟩
  | ok f =>
    simp only [Calculator.registerAnd, register, h.registry]
    exact ⟨trivial, h.settings, rfl, h.resolver⟩

/-- A step keeps the agreement. -/
theorem step (h : K.AgreeOff r L) (s : Step) : (K.step s).2.AgreeOff r (L.step s).2 := by
  match s with
  | .call key args =>
    exact ⟨by simpa [Calculator.step] using h.settings, by simpa [Calculator.step] using h.registry,
      by simpa [Calculator.step] using h.resolver⟩
  | .define key name lo hi handler doc => exact (h.registerAnd _ key doc _).2
  | .custom key name answer doc => exact (h.registerAnd _ key doc _).2
  | .alias key target doc =>
    simp only [Calculator.step, h.registry]
    exact (h.registerAnd _ key doc _).2
  | .family s f => exact ⟨h.settings, h.registry, h.resolver.set s f⟩
  | .get _ | .contains _ | .size | .names | .list => exact h

/-- With the same noise a step is answered alike unless it is a call with an argument of the
representation `r`. -/
theorem step_answer (h : K.AgreeOff r L) (hnoise : K.seed = L.seed) {s : Step}
    (hs : s.Avoids K.context.precision r) : (K.step s).1 = (L.step s).1 := by
  match s with
  | .call key args => simp only [Calculator.step, h.call_eq hnoise key hs]
  | .define key name lo hi handler doc => exact (h.registerAnd _ key doc _).1
  | .custom key name answer doc => exact (h.registerAnd _ key doc _).1
  | .alias key target doc =>
    simp only [Calculator.step, h.registry]
    exact (h.registerAnd _ key doc _).1
  | .family .. => rfl
  | .get _ | .contains _ | .size | .names | .list => simp only [Calculator.step, h.registry]

end AgreeOff

theorem registerAnd_settings (K : Calculator) (f : Except Failure Function) (key doc : String)
    (reply : Function → Reply) : (K.registerAnd f key doc reply).2.settings = K.settings := by
  cases f <;> rfl

theorem registerAnd_seed (K : Calculator) (f : Except Failure Function) (key doc : String)
    (reply : Function → Reply) : (K.registerAnd f key doc reply).2.seed = K.seed := by
  cases f <;> rfl

/-- No step changes the working precision. -/
theorem step_precision (K : Calculator) (s : Step) :
    (K.step s).2.context.precision = K.context.precision := by
  match s with
  | .call key args => exact K.afterCall_precision key args
  | .define .. | .custom .. | .alias .. =>
    exact congrArg Settings.precision (K.registerAnd_settings ..)
  | .family .. | .get _ | .contains _ | .size | .names | .list => rfl

/-- The noise stays the same over a step that is answered alike. -/
theorem AgreeOff.seed_step (h : K.AgreeOff r L) (hnoise : K.seed = L.seed) {s : Step}
    (hs : s.Avoids K.context.precision r) : (K.step s).2.seed = (L.step s).2.seed := by
  match s with
  | .call key args => exact h.seed_afterCall hnoise key hs
  | .define .. | .custom .. | .alias .. =>
    exact (K.registerAnd_seed ..).trans (hnoise.trans (L.registerAnd_seed ..).symm)
  | .family .. | .get _ | .contains _ | .size | .names | .list => exact hnoise

/-- A run keeps the agreement. -/
theorem AgreeOff.run (h : K.AgreeOff r L) (steps : List Step) :
    (K.run steps).2.AgreeOff r (L.run steps).2 := by
  induction steps generalizing K L with
  | nil => exact h
  | cons s rest ih => exact ih (h.step s)

/-- With the same noise to begin with, a run is answered alike if none of its steps is a call
with an argument of the representation `r`. -/
theorem AgreeOff.run_answers (h : K.AgreeOff r L) (hnoise : K.seed = L.seed) {steps : List Step}
    (hsteps : ∀ s ∈ steps, s.Avoids K.context.precision r) :
    (K.run steps).1 = (L.run steps).1 := by
  induction steps generalizing K L with
  | nil => rfl
  | cons s rest ih =>
    have hs := hsteps s List.mem_cons_self
    have hrest := ih (h.step s) (h.seed_step hnoise hs) fun t ht => by
      rw [K.step_precision s]
      exact hsteps t (List.mem_cons_of_mem _ ht)
    simp only [Calculator.run, h.step_answer hnoise hs, hrest]

theorem run_precision (K : Calculator) (steps : List Step) :
    (K.run steps).2.context.precision = K.context.precision := by
  induction steps generalizing K with
  | nil => rfl
  | cons s rest ih => exact (ih (K.step s).2).trans (K.step_precision s)

/-! ## A call without the family -/

/-- What a call of a function with a window can be refused for before its `i`-th argument is
resolved: there is no such function, the count is none of its counts, some argument is no
number, or the resolution stops among the arguments before the `i`-th one. -/
inductive RefusedBefore (K : Calculator) (key : String) (args : List Value) (i : Nat) :
    Failure → Prop
  | unknown (h : K.registry.functions.get? key = none) :
      K.RefusedBefore key args i (.unknownFunction key)
  | count {name : String} {w : Window} {h : Handler}
      (hf : K.registry.function key = .ok (.fixed name w h)) (hw : ¬ w.Admits args.length) :
      K.RefusedBefore key args i (.arityMismatch name w.lo w.hi args.length)
  | coercion {name : String} {w : Window} {h : Handler} {e : Failure}
      (hf : K.registry.function key = .ok (.fixed name w h)) (hw : w.Admits args.length)
      (hx : args.mapM (Value.coerce K.context.precision) = .error e) : K.RefusedBefore key args i e
  | resolution {name : String} {w : Window} {h : Handler} {xs : List Number} {e : Failure}
      (hf : K.registry.function key = .ok (.fixed name w h)) (hw : w.Admits args.length)
      (hx : args.mapM (Value.coerce K.context.precision) = .ok xs)
      (hstop : K.resolver.Stops K.context.precision (args.take i) e) : K.RefusedBefore key args i e

variable {key : String} {args : List Value} {name : String} {w : Window} {h : Handler}
  {xs : List Number} {e : Failure} {i : Nat} {v : Value}

/-- A resolution that fails ends the call. -/
theorem call_of_resolve_error (hf : K.registry.function key = .ok (.fixed name w h))
    (hw : w.Admits args.length) (hx : args.mapM (Value.coerce K.context.precision) = .ok xs)
    (hres : (K.resolver.resolve K.context.precision args).result = .error e) :
    (K.call key args).result = .error e := by
  simp only [call, hf, Function.call_fixed_of_admits hw hx, Function.handle,
    Resolver.resolve_coerced hx, hres]

theorem RefusedBefore.call_eq (hrefused : K.RefusedBefore key args i e) :
    (K.call key args).result = .error e := by
  cases hrefused with
  | unknown h => simp only [call, Registry.function, h]; rfl
  | count hf hw => simp only [call, hf, Function.call_of_not_admits hw]; rfl
  | coercion hf hw hx => simp only [call, hf, Function.call_fixed_of_coerce_error hw hx]; rfl
  | resolution hf hw hx hstop =>
    have hres := (hstop.append (args.drop i)).resolve_eq
    rw [List.take_append_drop] at hres
    exact call_of_resolve_error hf hw hx hres

/-- With an argument whose representation has no family, a call is refused before that
argument, or for it. -/
theorem call_of_missing_family (hr : K.resolver.families r = none)
    (hfixed : ∀ name answer, K.registry.function key ≠ .ok (.custom name answer))
    (hi : args[i]? = some v) (hv : v.representation? K.context.precision = .ok r)
    (hfirst : ∀ e, ¬ K.RefusedBefore key args i e) :
    (K.call key args).result = .error (.noFamily r) := by
  -- the causes of a refusal are ruled out in the order in which a call checks them
  cases hf : K.registry.function key with
  | error e =>
    have hunknown : K.registry.functions.get? key = none := by
      unfold Registry.function at hf
      split at hf
      · cases hf
      · assumption
    exact absurd (.unknown hunknown) (hfirst _)
  | ok f =>
    cases f with
    | custom name answer => exact absurd hf (hfixed name answer)
    | fixed name w h =>
      have hw : w.Admits args.length := by
        by_contra hw
        exact hfirst _ (.count hf hw)
      cases hx : args.mapM (Value.coerce K.context.precision) with
      | error e => exact absurd (.coercion hf hw hx) (hfirst e)
      | ok xs =>
        have hreps : ∀ u ∈ args.take i, ∃ s, u.representation? K.context.precision = .ok s :=
          fun u hu => Resolver.exists_representation_of_coerced hx u (List.mem_of_mem_take hu)
        refine call_of_resolve_error hf hw hx ?_
        cases hbefore : (K.resolver.resolve K.context.precision (args.take i)).result with
        | error e =>
          have hstop := (Resolver.resolve_eq_error_iff hreps).mp hbefore
          exact absurd (.resolution hf hw hx hstop) (hfirst e)
        | ok found =>
          obtain ⟨hlen, rfl⟩ := List.getElem?_eq_some_iff.mp hi
          have hsplit : args = args.take i ++ args[i] :: args.drop (i + 1) := by
            rw [← List.drop_eq_getElem_cons hlen, List.take_append_drop]
          rw [hsplit, Resolver.resolve_append hbefore,
            Resolver.resolveFrom_cons_error (Resolver.familyFor_of_missing hv hr)]

end Calculator

/-- **Changes of one family touch only the calls that use it.** Whatever family is put in the
place of that for `r`, or none, a run is answered with the same results, log lines and warnings
as without the change if none of its calls has an argument of the representation `r`; it does
not matter whether functions are registered before or after the change. After any run whatever,
such a step is answered as without the change, given the same noise, and what any handler is
given to work with is the same, too. Where there is no family for `r`, a call of a function with
a window and an argument of this representation is an unsupported argument for want of the
family, unless one of the causes that a call checks before refuses it. -/
theorem family_change :
    (∀ (K : Calculator) (r : Representation) (f : Option Family) (steps : List Step),
      let changed := (K.setFamily r f).run steps
      let unchanged := K.run steps
      ((∀ s ∈ steps, s.Avoids K.context.precision r) → changed.1 = unchanged.1) ∧
      (∀ (noise : Nat) (s : Step), s.Avoids K.context.precision r →
        ((changed.2.withNoise noise).step s).1 = ((unchanged.2.withNoise noise).step s).1) ∧
      ∀ xs : List Number, (∀ x ∈ xs, x.representation ≠ r) →
        changed.2.resolver.resolve K.context.precision (xs.map .number) =
          unchanged.2.resolver.resolve K.context.precision (xs.map .number)) ∧
    (∀ (K : Calculator) (r : Representation), (K.setFamily r none).resolver.families r = none) ∧
    ∀ (K : Calculator) (r : Representation) (key : String) (args : List Value) (i : Nat)
      (v : Value),
      K.resolver.families r = none →
      (∀ name answer, K.registry.function key ≠ .ok (.custom name answer)) →
      args[i]? = some v → v.representation? K.context.precision = .ok r →
      (∀ e, K.RefusedBefore key args i e → (K.call key args).result = .error e) ∧
      ((∀ e, ¬ K.RefusedBefore key args i e) →
        (K.call key args).result = .error (.noFamily r)) := by
  refine ⟨fun K r f steps => ?_, fun K r => K.resolver.set_families_self r none, ?_⟩
  · have hchange := K.agreeOff_setFamily r f
    have hagree := hchange.run steps
    have hprecision := (K.setFamily r f).run_precision steps
    refine ⟨hchange.run_answers rfl, fun noise s hs => ?_,
      fun xs hxs => hagree.resolver.resolve_numbers hxs⟩
    exact (hagree.withNoise noise noise).step_answer rfl (hprecision ▸ hs)
  · intro K r key args i v hr hfixed hi hv
    exact ⟨fun e hrefused => hrefused.call_eq,
      fun hfirst => Calculator.call_of_missing_family hr hfixed hi hv hfirst⟩

/-- Without a family for rationals a standard calculator adds integers as before, and refuses
a half. -/
theorem family_change_rational :
    ∃ K : Calculator, K.IsStandard ∧
      let L := K.setFamily .rational none
      let half := Value.number (.rational (1 / 2))
      let sum := Step.call "add" [.integer 1, .integer 1]
      (sum.Avoids K.context.precision .rational ∧ (L.run [sum]).1 = (K.run [sum]).1 ∧
        ∀ noise, ((L.withNoise noise).step sum).1 = ((K.withNoise noise).step sum).1) ∧
      (∀ e, ¬ L.RefusedBefore "add" [half, .integer 1] 0 e) ∧
      (L.call "add" [half, .integer 1]).result = .error (.noFamily .rational) := by
  obtain ⟨K, hK, -⟩ := Calculator.exists_isStandard .default
  obtain ⟨hframe, hremoved, hmissing⟩ := family_change
  let s := forward "add" (.binary .add) "add(x,y): x + y"
  have hs : s ∈ signatures := by simp [signatures, forwarded, s]
  have hadd : (K.setFamily .rational none).registry.function "add" = .ok s.function :=
    hK.functions s hs
  have havoids : (Step.call "add" [.integer 1, .integer 1]).Avoids K.context.precision
      .rational := by
    intro xs hx x hxs
    cases (mapM_coerce_numbers K.context.precision [.integer 1, .integer 1]).symm.trans hx
    rcases List.mem_pair.mp hxs with rfl | rfl <;> exact Representation.noConfusion
  have hfirst : ∀ e, ¬ (K.setFamily .rational none).RefusedBefore "add"
      [.number (.rational (1 / 2)), .integer 1] 0 e := by
    intro e hrefused
    cases hrefused with
    | unknown h => simp [Registry.function, h] at hadd
    | count hf hw =>
      cases hadd.symm.trans hf
      exact hw (by decide)
    | coercion hf hw hx => cases hx
    | resolution hf hw hx hstop => cases hstop.resolve_eq
  have hrun := (hframe K .rational none [.call "add" [.integer 1, .integer 1]]).1
  refine ⟨K, hK, ⟨havoids, hrun fun t ht => List.mem_singleton.mp ht ▸ havoids,
    fun noise => (hframe K .rational none []).2.1 noise _ havoids⟩, hfirst, ?_⟩
  refine (hmissing _ .rational "add" _ 0 _ (hremoved K .rational) ?_ rfl rfl).2 hfirst
  intro name answer hcustom
  cases hadd.symm.trans hcustom

end TowerCalc
