import TowerCalc.Calculator
import TowerCalc.Proofs.Calculators
import TowerCalc.Proofs.Failures
import TowerCalc.Proofs.Listings

/-!
# Advertised argument counts

The list of functions advertises the counts that a function takes. They are the counts
that its calls accept: any other count is refused before anything is done with the
arguments, and for the counts of the list nothing further on complains of a count.

## Results

* `Spans`: the smallest and the largest of some counts; `Window.spans_admitted`.
* `CountFree x`: `x` does not fail over a count; `countFree_apply`, `countFree_resolveFrom`: the
  stages of a call behind its own check.
* `Handler.LeavesCounts`, `countFree_run`: handlers whose computations do not fail over counts.
* `Function.call_of_not_admits`, `Function.call_stages`: calls with a count outside the
  window and inside it.
* `listed_counts_accepted`: the counts of a listed function, its calls and its refusals.
-/
namespace TowerCalc

/-! ## Counts of a window -/

/-- `a` is the smallest and `b` the largest of the counts. -/
structure Spans (A : List Nat) (a b : Nat) : Prop where
  smallest : a ∈ A
  largest : b ∈ A
  between : ∀ c ∈ A, a ≤ c ∧ c ≤ b

namespace Window

theorem spans_admitted (w : Window) : Spans w.admitted w.lo w.hi where
  smallest := (w.mem_admitted w.lo).mpr ⟨Nat.le_refl _, w.lo_le_hi⟩
  largest := (w.mem_admitted w.hi).mpr ⟨w.lo_le_hi, Nat.le_refl _⟩
  between c hc := (w.mem_admitted c).mp hc

theorem length_admitted (w : Window) : w.admitted.length = w.size := by
  simp [admitted]

theorem length_admitted_eq_one_iff (w : Window) : w.admitted.length = 1 ↔ w.lo = w.hi := by
  have := w.lo_le_hi
  rw [length_admitted, size]
  omega

end Window

/-- How a refusal puts the counts `A` from `a` to `b`: a single one by itself. -/
def countsText (A : List Nat) (a b : Nat) : String :=
  if A.length = 1 then s!"{a} argument" ++ (if a = 1 then "" else "s")
  else s!"{a} to {b} arguments"

/-- A refusal names the one count that is accepted, or the smallest and the largest one. -/
theorem Failure.message_arityMismatch (name : String) (w : Window) (n : Nat) :
    (arityMismatch name w.lo w.hi n).message =
      some s!"Function {name} takes {countsText w.admitted w.lo w.hi}, not {n}" := by
  have htext (k : Nat) : toString (k : Int) = toString k := rfl
  have hone : ((w.lo : Int) = 1) = (w.lo = 1) := by
    rw [eq_iff_iff]
    omega
  simp only [message, arityText, countsText, htext, Int.natCast_inj, w.length_admitted_eq_one_iff,
    hone]

/-! ## Failures over other things -/

/-- If the computation fails, then not over a count of arguments. -/
def CountFree {α : Type} (x : Except Failure α) : Prop :=
  ∀ e, x = .error e → e.kind ≠ .arityMismatch

theorem Failure.eq_of_kind_arityMismatch {e : Failure} (h : e.kind = .arityMismatch) :
    ∃ name lo hi n, e = .arityMismatch name lo hi n := by
  cases e with
  | arityMismatch name lo hi n => exact ⟨name, lo, hi, n, rfl⟩
  | _ => cases h

theorem Numeric.countFree {α : Type} {x : Except Failure α} (h : Numeric x) : CountFree x := by
  intro e he hk
  obtain ⟨name, lo, hi, n, rfl⟩ := Failure.eq_of_kind_arityMismatch hk
  cases h _ he

section Rules
variable {α β : Type} {x y : Except Failure α} {e : Failure}

@[simp]
theorem countFree_ok (a : α) : CountFree (.ok a : Except Failure α) := by
  intro e h; cases h

@[simp]
theorem countFree_pure (a : α) : CountFree (pure a : Except Failure α) := countFree_ok a

@[simp]
theorem countFree_error : CountFree (.error e : Except Failure α) ↔ e.kind ≠ .arityMismatch :=
  ⟨fun h => h e rfl, fun h e' he => by cases he; exact h⟩

@[simp]
theorem countFree_map {f : α → β} : CountFree (x.map f) ↔ CountFree x := by
  cases x <;> simp [Except.map]

@[simp]
theorem countFree_fmap {f : α → β} : CountFree (f <$> x) ↔ CountFree x := countFree_map

@[simp]
theorem countFree_bind {f : α → Except Failure β} :
    CountFree (x >>= f) ↔ CountFree x ∧ ∀ a, x = .ok a → CountFree (f a) := by
  cases x <;> simp [bind, Except.bind]

end Rules

/-! ## Primitives and handlers -/

variable (C : Context)

namespace RealFamily

/-- A complex number cannot be compared, which is no matter of counts. -/
@[simp]
theorem countFree_ordered (z : Scalar) : CountFree (ordered z) := by
  cases z <;> simp [ordered, Failure.kind]

@[simp]
theorem countFree_remainderOperands (z u : Scalar) : CountFree (remainderOperands z u) := by
  unfold remainderOperands
  split
  · exact countFree_error.mpr (by simp [Failure.kind])
  · simp

@[simp]
theorem countFree_orderedUnary (f : OrderedUnary) (x : Number) :
    CountFree (orderedUnary C f x) := by
  cases f with
  | roundToInteger => exact Numeric.countFree (by simp [orderedUnary])
  | _ => simp [orderedUnary, (numeric_integerOf _).countFree]

@[simp]
theorem countFree_orderedBinary (f : OrderedBinary) (x y : Number) :
    CountFree (orderedBinary C f x y) := by
  cases f with
  | gcd | lcm | roundToPrecision | roundToPlaces | roundToMultiple | scale =>
    exact Numeric.countFree (by simp [orderedBinary])
  | _ => simp [orderedBinary]

end RealFamily

@[simp]
theorem RationalFamily.countFree_orderedBinary (f : OrderedBinary) (x y : Number) :
    CountFree (orderedBinary C f x y) := by
  cases f with
  | atan2 | hypot => simp [orderedBinary]
  | _ => exact Numeric.countFree (by simp [orderedBinary])

@[simp]
theorem IntegerFamily.countFree_orderedBinary (f : OrderedBinary) (x y : Number) :
    CountFree (orderedBinary C f x y) := by
  cases f with
  | gcd | lcm => exact Numeric.countFree (by simp [orderedBinary])
  | _ => simp [orderedBinary]

/-- A primitive complains of operands that it cannot compare, but of no function's count. -/
theorem countFree_apply (r : Representation) (p : Primitive) (xs : List Number) :
    CountFree (apply C r p xs) := by
  unfold apply
  split
  · cases r <;> exact Numeric.countFree (by simp [applyUnary])
  · cases r with
    | integer | rational => exact Numeric.countFree (by simp [applyOrderedUnary])
    | real => exact RealFamily.countFree_orderedUnary C _ _
    | complex => exact countFree_error.mpr (by simp [Failure.kind])
  · cases r <;> exact Numeric.countFree (by simp [applyBinary])
  · cases r with
    | integer => exact IntegerFamily.countFree_orderedBinary C _ _ _
    | rational => exact RationalFamily.countFree_orderedBinary C _ _ _
    | real => exact RealFamily.countFree_orderedBinary C _ _ _
    | complex => exact countFree_error.mpr (by simp [Failure.kind])
  · exact (ComplexFamily.numeric_ternary C _ _ _ _).countFree
  · exact (ComplexFamily.numeric_quaternary C _ _ _ _ _).countFree
  · exact countFree_error.mpr (by simp [Failure.kind])

/-- No computation within the handler fails over a count. Only handlers that are such
computations can: they may call other functions. -/
def Handler.LeavesCounts : Handler → Prop
  | forCount _ h other => h.LeavesCounts ∧ other.LeavesCounts
  | deprecated _ h => h.LeavesCounts
  | compute g => ∀ C f xs, CountFree (g C f xs)
  | _ => True

theorem Handler.countFree_run {h : Handler} (hh : h.LeavesCounts) (f : Option Family)
    (xs : List Number) : CountFree (h.run C f xs) := by
  induction h with
  | primitive p =>
    cases f with
    | none => exact countFree_error.mpr (by simp [Failure.kind])
    | some f => exact countFree_map.mpr (countFree_apply C f.representation p xs)
  | forCount n h other ih ihOther =>
    unfold run
    split
    · exact ih hh.1
    · exact ihOther hh.2
  | noCase => exact countFree_error.mpr (by simp [Failure.kind])
  | deprecated _ h ih => exact ih hh
  | argument i =>
    unfold run
    split
    · exact countFree_ok _
    · exact countFree_error.mpr (by simp [Failure.kind])
  | compute g => exact hh C f xs
  | _ => exact countFree_ok _

/-! ## Coercion and resolution -/

theorem Value.countFree_coerce (P : Precision) (v : Value) : CountFree (v.coerce P) := by
  intro e he
  cases v with
  | decimal d =>
    cases d with
    | infinite => cases he; simp [Failure.kind]
    | _ => cases he
  | _ => cases he <;> simp [Failure.kind]

namespace Resolver
variable {R : Resolver} {P : Precision}

theorem countFree_resolveFrom (dominant : Option Family) (vs : List Value) :
    CountFree (resolveFrom R P dominant vs).result := by
  induction vs generalizing dominant with
  | nil => exact countFree_ok _
  | cons v vs ih =>
    cases hv : R.familyFor P v with
    | error e =>
      rw [resolveFrom_cons_error hv]
      refine countFree_error.mpr fun hk => ?_
      rw [familyFor_error_kind hv] at hk
      cases hk
    | ok f =>
      cases dominant with
      | none => rw [resolveFrom_cons_none hv]; exact ih _
      | some d =>
        rw [resolveFrom_cons_some hv]
        split
        · split
          · exact countFree_error.mpr (by simp [Failure.kind])
          · exact ih _
        · exact ih _

/-- Values that resolve have a family each. -/
theorem serves_of_resolveFrom {dominant : Option Family} {vs : List Value} {f : Option Family}
    (h : (resolveFrom R P dominant vs).result = .ok f) : R.Serves P vs := by
  induction vs generalizing dominant with
  | nil => intro v hv; cases hv
  | cons v vs ih =>
    cases hv : R.familyFor P v with
    | error e => rw [resolveFrom_cons_error hv] at h; cases h
    | ok g =>
      have hrest : R.Serves P vs := by
        cases dominant with
        | none => rw [resolveFrom_cons_none hv] at h; exact ih h
        | some d =>
          rw [resolveFrom_cons_some hv] at h
          split at h
          · split at h
            · cases h
            · exact ih h
          · exact ih h
      intro u hu
      rcases List.mem_cons.mp hu with rfl | hu
      · exact ⟨g, hv⟩
      · exact hrest u hu

end Resolver

/-! ## Calls -/

namespace Function
variable {R : Resolver} {C : Context} {args : List Value} {name : String} {w : Window}

/-- A count outside the window ends a call, whatever the arguments and the handler are and
however they would be resolved. -/
theorem call_of_not_admits (hw : ¬ w.Admits args.length) (R : Resolver) (C : Context)
    (h : Handler) :
    (fixed name w h).call R C args = .failed (.arityMismatch name w.lo w.hi args.length) := by
  have hc : w.check name args.length = .error (.arityMismatch name w.lo w.hi args.length) := by
    unfold Window.check checkCount
    unfold Window.Admits at hw
    exact if_pos (by omega)
  simp only [call, hc]

/-- The arguments are coerced to the numbers `xs`. -/
def Coerced (C : Context) (args : List Value) (xs : List Number) : Prop :=
  List.Forall₂ (fun v x => v.coerce C.precision = .ok x) args xs

/-- The arguments get no further than their coercion or their resolution. -/
def StopsAt (R : Resolver) (C : Context) (args : List Value) (e : Failure) : Prop :=
  (∃ v ∈ args, v.coerce C.precision = .error e) ∨
  ∃ xs, Coerced C args xs ∧ (R.resolve C.precision (xs.map .number)).result = .error e

/-- The arguments are coerced to the numbers `xs`, which have a family each and resolve
to `f`. -/
def Reaches (R : Resolver) (C : Context) (args : List Value) (xs : List Number)
    (f : Option Family) : Prop :=
  Coerced C args xs ∧ R.Serves C.precision (xs.map .number) ∧
    (R.resolve C.precision (xs.map .number)).result = .ok f

theorem StopsAt.kind_ne {e : Failure} (h : StopsAt R C args e) : e.kind ≠ .arityMismatch := by
  rcases h with ⟨v, -, hv⟩ | ⟨xs, -, hr⟩
  · exact Value.countFree_coerce _ v e hv
  · exact Resolver.countFree_resolveFrom _ _ e hr

/-- A call with an accepted count fails before its handler, the same way for all handlers,
or the handler runs on coerced and resolved arguments. -/
theorem call_stages (hw : w.Admits args.length) :
    (∃ e log, StopsAt R C args e ∧ ∀ h, (fixed name w h).call R C args = ⟨.error e, log, []⟩) ∨
    ∃ xs f, Reaches R C args xs f ∧ ∀ h, ((fixed name w h).call R C args).result =
      (h.run C f xs).map (Value.promote C.precision) := by
  cases hx : args.mapM (Value.coerce C.precision) with
  | error e =>
    exact .inl ⟨e, [], .inl (exists_of_mapM_error hx),
      fun h => call_fixed_of_coerce_error hw hx⟩
  | ok xs =>
    have hcoerced : Coerced C args xs := forall₂_of_mapM hx
    cases hr : (R.resolve C.precision (xs.map .number)).result with
    | error e =>
      refine .inl ⟨e, (R.resolve C.precision (xs.map .number)).log, .inr ⟨xs, hcoerced, hr⟩,
        fun h => ?_⟩
      rw [call_fixed_of_admits hw hx, handle, hr]
    | ok f =>
      refine .inr ⟨xs, f, ⟨hcoerced, Resolver.serves_of_resolveFrom hr, hr⟩, fun h => ?_⟩
      rw [call_fixed_of_admits hw hx, handle, hr]

/-- A call ends over its count the same way for all handlers exactly when the window leaves the
count out: that is its own check. -/
theorem own_arityMismatch_iff :
    (∃ e, e.kind = .arityMismatch ∧ ∀ h, ((fixed name w h).call R C args).result = .error e) ↔
      ¬ w.Admits args.length := by
  constructor
  · rintro ⟨e, hk, he⟩ hw
    rcases @call_stages R C args name w hw with ⟨e', log, hstop, hcall⟩ | ⟨xs, f, -, hcall⟩
    · have heq : e' = e := by simpa [hcall] using he .noCase
      exact hstop.kind_ne (heq ▸ hk)
    · -- a handler that answers at once does not fail
      cases (hcall .family).symm.trans (he .family)
  · intro hw
    exact ⟨_, rfl, fun h => by rw [call_of_not_admits hw]; rfl⟩

/-- An accepted count is no reason to fail. -/
theorem countFree_call (hw : w.Admits args.length) {h : Handler} (hh : h.LeavesCounts) :
    CountFree ((fixed name w h).call R C args).result := by
  rcases @call_stages R C args name w hw with ⟨e, log, he, hcall⟩ | ⟨xs, f, -, hcall⟩
  · rw [hcall]
    exact countFree_error.mpr he.kind_ne
  · rw [hcall]
    exact countFree_map.mpr (Handler.countFree_run C hh f xs)

/-- A call fails over its count of arguments exactly when the window leaves it out. -/
theorem exists_arityMismatch_iff {h : Handler} (hh : h.LeavesCounts) :
    (∃ e, ((fixed name w h).call R C args).result = .error e ∧ e.kind = .arityMismatch) ↔
      ¬ w.Admits args.length := by
  constructor
  · rintro ⟨e, he, hk⟩ hw
    exact countFree_call hw hh e he hk
  · intro hw
    rw [call_of_not_admits hw]
    exact ⟨_, rfl, rfl⟩

end Function

/-! ## The list of functions -/

/-- A function that is listed with counts has a window with these counts. -/
theorem Registry.exists_window_of_listed {r : Registry} {ls : List Listed} {l : Listed}
    {A : List Nat} (hls : r.listing = .ok ls) (hl : l ∈ ls) (hA : l.counts = some A) :
    ∃ w h, r.function l.key = .ok (.fixed l.function w h) ∧ A = w.admitted := by
  obtain ⟨f, hf, hlisted⟩ := exists_of_mem_listing hls hl
  obtain ⟨-, doc, -, hitem⟩ := listed_eq_ok_iff.mp hlisted
  rw [hitem] at hA ⊢
  cases f with
  | custom name answer => cases hA
  | fixed name w h =>
    cases hA
    exact ⟨w, h, hf, rfl⟩

/-- **Advertised counts are accepted counts.** Let a calculator list a function with the
counts `A`, of which there is at least one. The check of a call by its key, before anything else
is done, fails over the number of arguments if and only if that number is not in `A`, and so does
the call as a whole unless a computation within its handler fails over counts of its own. Such a
refusal is the same for all arguments, handlers and resolvers, and its message gives the one count
of `A` or the smallest and the largest. For a number in `A` the arguments fail to be coerced or
resolved, whatever the handler is, or any handler gets the coerced arguments and the family
that they resolve to. -/
theorem listed_counts_accepted (K : Calculator) {ls : List Listed} {l : Listed} {A : List Nat}
    (hls : K.registry.listing = .ok ls) (hl : l ∈ ls) (hA : l.counts = some A) :
    ∃ w h a b, K.registry.function l.key = .ok (.fixed l.function w h) ∧
      A ≠ [] ∧ Spans A a b ∧ ∀ args : List Value,
        K.call l.key args = (Function.fixed l.function w h).call K.resolver K.context args ∧
        ((∃ e, e.kind = .arityMismatch ∧ ∀ h',
          ((Function.fixed l.function w h').call K.resolver K.context args).result = .error e) ↔
            args.length ∉ A) ∧
        (h.LeavesCounts →
          ((∃ e, (K.call l.key args).result = .error e ∧ e.kind = .arityMismatch) ↔
            args.length ∉ A)) ∧
        (args.length ∉ A → ∃ e,
          e.kind = .arityMismatch ∧
          (∀ R C h' args', args'.length = args.length →
            (Function.fixed l.function w h').call R C args' = .failed e) ∧
          e.message =
            some s!"Function {l.function} takes {countsText A a b}, not {args.length}") ∧
        (args.length ∈ A →
          (∃ e log, Function.StopsAt K.resolver K.context args e ∧
            ∀ h', (Function.fixed l.function w h').call K.resolver K.context args =
              ⟨.error e, log, []⟩) ∨
          ∃ xs f, Function.Reaches K.resolver K.context args xs f ∧
            ∀ h', ((Function.fixed l.function w h').call K.resolver K.context args).result =
              (h'.run K.context f xs).map (Value.promote K.context.precision)) := by
  obtain ⟨w, h, hf, rfl⟩ := Registry.exists_window_of_listed hls hl hA
  have hspans := w.spans_admitted
  refine ⟨w, h, w.lo, w.hi, hf, List.ne_nil_of_mem hspans.smallest, hspans, fun args => ?_⟩
  have hcall : K.call l.key args =
      (Function.fixed l.function w h).call K.resolver K.context args := by
    rw [Calculator.call, hf]
  rw [w.mem_admitted]
  refine ⟨hcall, Function.own_arityMismatch_iff,
    fun hh => hcall ▸ Function.exists_arityMismatch_iff hh, fun hw => ?_, Function.call_stages⟩
  refine ⟨_, rfl, fun R C h' args' hlen => ?_,
    Failure.message_arityMismatch l.function w args.length⟩
  rw [← hlen] at hw ⊢
  exact Function.call_of_not_admits hw R C h'

/-- A function of one or two arguments by another name than its key. -/
theorem listed_counts_accepted_one_or_two :
    let K := ((Calculator.empty ⟨.default, false⟩).register
      ⟨"f", .fixed "count" { lo := 1, hi := 2 } .count, ""⟩).1
    let l : Listed := ⟨"f", "count", some [1, 2], ""⟩
    K.registry.listing = .ok [l] ∧ l.counts = some [1, 2] ∧ ∀ args : List Value,
      (∃ e, (K.call "f" args).result = .error e ∧ e.kind = .arityMismatch) ↔
        args.length ∉ [1, 2] := by
  intro K l
  have hls : K.registry.listing = .ok [l] := rfl
  obtain ⟨w, h, _, _, hf, _, _, hcalls⟩ :=
    listed_counts_accepted K hls (List.mem_singleton.mpr rfl) rfl
  have hh : h.LeavesCounts := by
    cases hf
    trivial
  exact ⟨hls, rfl, fun args => (hcalls args).2.2.1 hh⟩

end TowerCalc
