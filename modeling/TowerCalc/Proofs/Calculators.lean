import TowerCalc.Calculator
import TowerCalc.Proofs.Calls

/-!
# Standard calculators

A calculator is standard if it has the standard families and, under every key of the
table, the function of the table. It starts as one and remains one from call to call. A
call of such a function runs the primitive that the count selects on the family of the
widest argument.

## Results

* `Calculator.create_isStandard`, `Calculator.IsStandard.afterCall`: how it starts and goes on.
* `Calculator.IsStandard.call_eq`: a call by key is a call of the function of the table.
* `Widest`, `Signature.call_of_widest`: the family that the call runs on.
* `Signature.call_append`: what a call makes of one argument among others.
-/
namespace TowerCalc

namespace Calculator

theorem registerAll_resolver (K : Calculator) (table : List Signature) :
    (K.registerAll table).1.resolver = K.resolver := by
  induction table generalizing K with
  | nil => rfl
  | cons s rest ih => exact ih (K.register ⟨s.key, s.function, s.doc⟩).1

/-- Keys outside the table keep their functions. -/
theorem get?_registerAll_of_notMem {table : List Signature} {key : String}
    (h : key ∉ table.map Signature.key) (K : Calculator) :
    (K.registerAll table).1.registry.functions.get? key = K.registry.functions.get? key := by
  induction table generalizing K with
  | nil => rfl
  | cons s rest ih =>
    rw [List.map_cons, List.mem_cons, not_or] at h
    exact (ih h.2 _).trans (K.registry.functions.get?_insert_of_ne _ (Ne.symm h.1))

/-- In a table without repeated keys no signature is overwritten by a later one. -/
theorem get?_registerAll_of_mem {table : List Signature} {s : Signature}
    (hkeys : (table.map Signature.key).Nodup) (hs : s ∈ table) (K : Calculator) :
    (K.registerAll table).1.registry.functions.get? s.key = some s.function := by
  induction table generalizing K with
  | nil => cases hs
  | cons t rest ih =>
    obtain ⟨hfresh, hrest⟩ := List.nodup_cons.mp hkeys
    rcases List.mem_cons.mp hs with rfl | hs
    · exact (get?_registerAll_of_notMem hfresh _).trans
        (K.registry.functions.get?_insert_self s.key s.function)
    · exact ih hrest hs _

/-- The standard families, and the table under its keys. -/
structure IsStandard (K : Calculator) : Prop where
  families : K.resolver = .standard K.resolver.strict
  functions : ∀ s ∈ signatures, K.registry.function s.key = .ok s.function

theorem nodup_keys : (signatures.map Signature.key).Nodup := by
  decide +kernel

theorem create_isStandard (settings : Settings) : (create settings signatures).1.IsStandard where
  families := by
    have : (create settings signatures).1.resolver = .standard settings.strict :=
      registerAll_resolver (empty settings) signatures
    rw [this]
    rfl
  functions s hs :=
    Registry.function_eq_ok_iff.mpr (get?_registerAll_of_mem nodup_keys hs (empty settings))

-- the calculator is taken apart first, or its seed is compared with the next one
@[simp]
theorem advance_resolver (K : Calculator) : K.advance.resolver = K.resolver := by
  cases K; rfl

@[simp]
theorem advance_registry (K : Calculator) : K.advance.registry = K.registry := by
  cases K; rfl

@[simp]
theorem advance_settings (K : Calculator) : K.advance.settings = K.settings := by
  cases K; rfl

/-! A call changes the noise at most. -/

variable (K : Calculator) (key : String) (args : List Value)

@[simp]
theorem afterCall_resolver : (K.afterCall key args).resolver = K.resolver := by
  unfold afterCall
  split
  · exact K.advance_resolver
  · rfl

@[simp]
theorem afterCall_registry : (K.afterCall key args).registry = K.registry := by
  unfold afterCall
  split
  · exact K.advance_registry
  · rfl

@[simp]
theorem afterCall_settings : (K.afterCall key args).settings = K.settings := by
  unfold afterCall
  split
  · exact K.advance_settings
  · rfl

@[simp]
theorem afterCall_precision : (K.afterCall key args).context.precision = K.context.precision :=
  congrArg Settings.precision (K.afterCall_settings key args)

variable {K} in
theorem IsStandard.afterCall (h : K.IsStandard) : (K.afterCall key args).IsStandard where
  families := by simpa using h.families
  functions := by simpa using h.functions

theorem exists_isStandard (P : Precision) :
    ∃ K : Calculator, K.IsStandard ∧ K.context.precision = P :=
  ⟨(create ⟨P, true⟩ signatures).1, create_isStandard _, rfl⟩

theorem IsStandard.call_eq {K : Calculator} (h : K.IsStandard) {s : Signature}
    (hs : s ∈ signatures) (args : List Value) :
    K.call s.key args = s.function.call (.standard K.resolver.strict) K.context args := by
  rw [call, h.functions s hs, ← h.families]

end Calculator

/-! ## Calls on numbers -/

theorem mapM_coerce_numbers (P : Precision) (xs : List Number) :
    (xs.map Value.number).mapM (Value.coerce P) = .ok xs := by
  induction xs with
  | nil => rfl
  | cons x xs ih =>
    have hx : (Value.number x).coerce P = pure x := rfl
    rw [List.map_cons, List.mapM_cons, hx, ih]
    rfl

/-- A value that is no number ends a call before anything is resolved. -/
theorem Function.call_fixed_of_coerce_error {R : Resolver} {C : Context} {args : List Value}
    {name : String} {w : Window} {h : Handler} {e : Failure} (hw : w.Admits args.length)
    (hx : args.mapM (Value.coerce C.precision) = .error e) :
    (fixed name w h).call R C args = .failed e := by
  simp only [call, (w.check_eq_ok_iff name args.length).mpr hw, hx]

theorem map_promote_eq_ok_iff {a : Except Failure Number} {y : Number} :
    (a.map fun x => Value.number x.promote) = .ok (.number y) ↔ a.map Number.promote = .ok y := by
  cases a <;> simp [Except.map]

theorem map_promote_congr {a b : Except Failure Number}
    (h : a.map Number.promote = b.map Number.promote) :
    (a.map fun x => Value.number x.promote) = b.map fun x => Value.number x.promote := by
  cases a <;> cases b <;> simp_all [Except.map]

/-! ## The widest argument -/

/-- The widest of the representations of numbers. -/
structure Widest (r : Representation) (xs : List Number) : Prop where
  exists_mem : ∃ x ∈ xs, x.representation = r
  rank_le : ∀ x ∈ xs, x.representation.rank ≤ r.rank

theorem exists_widest {xs : List Number} (hne : xs ≠ []) : ∃ r, Widest r xs := by
  obtain ⟨x, hx, hwide, -⟩ := Resolver.resolve_standard true .default hne
  exact ⟨_, ⟨x, hx, rfl⟩, hwide⟩

theorem Widest.unique {r r' : Representation} {xs : List Number} (h : Widest r xs)
    (h' : Widest r' xs) : r = r' := by
  obtain ⟨x, hx, rfl⟩ := h.exists_mem
  obtain ⟨y, hy, rfl⟩ := h'.exists_mem
  exact Representation.rank_injective (Nat.le_antisymm (h'.rank_le x hx) (h.rank_le y hy))

/-- The primitive that the count selects runs on the family of the widest argument. -/
theorem Signature.call_of_widest {s : Signature} {args : List Value} {xs : List Number}
    {p : Primitive} {r : Representation} {C : Context} (strict : Bool)
    (hw : s.window.Admits args.length) (hx : args.mapM (Value.coerce C.precision) = .ok xs)
    (hp : s.handler.selected? args.length = some p) (hr : Widest r xs) :
    (s.function.call (.standard strict) C args).result =
      (apply C r p xs).map fun x => .number x.promote := by
  have hne : xs ≠ [] := by
    rintro rfl
    simpa using hr.exists_mem
  obtain ⟨x, hxm, hwide, hres⟩ := Resolver.resolve_standard strict C.precision hne
  have hxr : x.representation = r := Widest.unique ⟨⟨x, hxm, rfl⟩, hwide⟩ hr
  rw [Signature.function, Function.call_of_selected? hw hx hp (congrArg Resolution.result hres),
    Family.standard_representation, hxr]

/-- A function of one number runs its primitive on the family of that number. -/
theorem Calculator.IsStandard.call_unary {K : Calculator} (hK : K.IsStandard) {s : Signature}
    (hs : s ∈ signatures) {f : Unary} (hw : s.window.Admits 1)
    (hf : s.handler.selected? 1 = some (.unary f)) (x : Number) :
    (K.call s.key [.number x]).result =
      (applyUnary K.context x.representation f x).map fun y => .number y.promote := by
  have hwidest : Widest x.representation [x] := ⟨⟨x, by simp, rfl⟩, by simp⟩
  rw [hK.call_eq hs]
  exact Signature.call_of_widest _ hw (mapM_coerce_numbers _ [x]) hf hwidest

/-- A function of two numbers runs its primitive on the family of the wider one. -/
theorem Calculator.IsStandard.call_binary {K : Calculator} (hK : K.IsStandard) {s : Signature}
    (hs : s ∈ signatures) {p : Primitive} (hw : s.window.Admits 2)
    (hp : s.handler.selected? 2 = some p) {v w : Value} {x y : Number} {r : Representation}
    (hv : v.coerce K.context.precision = .ok x) (hy : w.coerce K.context.precision = .ok y)
    (hr : Widest r [x, y]) :
    (K.call s.key [v, w]).result =
      (apply K.context r p [x, y]).map fun z => .number z.promote := by
  have hcoerce : [v, w].mapM (Value.coerce K.context.precision) = .ok [x, y] := by
    have hx : v.coerce K.context.precision = pure x := hv
    have hy : w.coerce K.context.precision = pure y := hy
    simp [hx, hy]
    rfl
  rw [hK.call_eq hs]
  exact Signature.call_of_widest _ hw hcoerce hp hr

/-- One argument among others: the call fails whatever number it is, or runs a primitive in
which the argument has its place. -/
theorem Signature.call_append {s : Signature} (hs : s ∈ signatures) (strict : Bool) (C : Context)
    (before after : List Value) :
    (∃ e, ∀ v x, v.coerce C.precision = .ok x →
      (s.function.call (.standard strict) C (before ++ v :: after)).result = .error e) ∨
    ∃ p us vs, s.handler.selected? p.arity = some p ∧ us.length + (vs.length + 1) = p.arity ∧
      ∀ v x r, v.coerce C.precision = .ok x → Widest r (us ++ x :: vs) →
        (s.function.call (.standard strict) C (before ++ v :: after)).result =
          (apply C r p (us ++ x :: vs)).map fun x => .number x.promote := by
  have hlen (v : Value) : (before ++ v :: after).length = before.length + (after.length + 1) := by
    simp
  cases hc : s.window.check s.name (before.length + (after.length + 1)) with
  | error e =>
    refine .inl ⟨e, fun v x _ => ?_⟩
    simp only [Signature.function, Function.call, hlen, hc]
    rfl
  | ok =>
    have hw := (s.window.check_eq_ok_iff ..).mp hc
    rcases mapM_coerce_append_cases C.precision before after with
      ⟨e, he⟩ | ⟨us, vs, hus, hvs, hx⟩
    · refine .inl ⟨e, fun v x hv => ?_⟩
      rw [Signature.function, Function.call_fixed_of_coerce_error ((hlen v).symm ▸ hw) (he v x hv)]
      rfl
    · obtain ⟨p, hp, harity, -⟩ := selects_of_admits hs hw
      refine .inr ⟨p, us, vs, harity ▸ hp, by omega, fun v x r hv hr => ?_⟩
      exact Signature.call_of_widest strict ((hlen v).symm ▸ hw) (hx v x hv) ((hlen v).symm ▸ hp) hr

end TowerCalc
