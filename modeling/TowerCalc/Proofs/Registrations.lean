import TowerCalc.Session
import TowerCalc.Proofs.Calculators
import TowerCalc.Proofs.Listings

/-!
# What a registry remembers

A registry says nothing of how it came to be, but its contents follow from the history of
the registrations that succeeded: under each key there is the latest one, and a line was
logged for every one that another took the place of. A history is a list of entries, the
latest first. What a step adds to it can be told from the step and the history alone.

## Results

* `latest?`, `Step.registration?`, `chronicle`: the history of a run.
* `Recounts`: a registry and a log that are true to a history.
* `Recounts.insert`, `Recounts.step`, `Recounts.run`: registrations, steps and runs keep it so.
* `step_registry_of_error`: a step that fails leaves the registry as it is.
* `exists_step_list`, `step_list_of_not_listable`: when the functions can be listed.
* `registry_after_run`: what holds of the registry of a calculator after any run.
-/
namespace TowerCalc

/-! ## Histories -/

/-- What a signature puts into a registry. -/
def Signature.entry (s : Signature) : Entry := ⟨s.key, s.function, s.doc⟩

/-- What is told of the function of an entry if its counts fit into a list. -/
def Entry.listed (e : Entry) : Listed :=
  ⟨e.key, e.function.name, e.function.window?.map Window.admitted, e.doc⟩

/-- The latest entry of a key in a history. -/
def latest? (h : List Entry) (key : String) : Option Entry := h.find? fun e => e.key = key

@[simp]
theorem latest?_cons_self (e : Entry) (h : List Entry) : latest? (e :: h) e.key = some e := by
  simp [latest?]

theorem latest?_cons_of_ne {e : Entry} {key : String} (hne : e.key ≠ key) (h : List Entry) :
    latest? (e :: h) key = latest? h key := by
  simp [latest?, hne]

/-- A dictionary of the latest entries is still one when an entry is put there. -/
theorem get?_insert_of_latest {α : Type} {h : List Entry} {d : Dictionary α} {g : Entry → α}
    (hd : ∀ key, d.get? key = (latest? h key).map g) (e : Entry) (key : String) :
    (d.insert e.key (g e)).get? key = (latest? (e :: h) key).map g := by
  by_cases hk : e.key = key
  · subst hk
    simp
  · rw [Dictionary.get?_insert_of_ne _ _ hk, latest?_cons_of_ne hk, hd]

theorem latest?_eq_some_iff_mem {h : List Entry} {key : String} :
    (∃ e, latest? h key = some e) ↔ ∃ e ∈ h, e.key = key := by
  rw [← Option.isSome_iff_exists, latest?, List.find?_isSome]
  simp

/-- The steps that register a function if they succeed. -/
def Step.registers : Step → Bool
  | .define .. | .custom .. | .alias .. => true
  | _ => false

/-- The entry that a step registers after the history `h`, if it registers one. -/
def Step.registration? (h : List Entry) : Step → Option Entry
  | .define key name lo hi handler doc =>
    (Window.of? lo hi).map fun w => ⟨key, .fixed name w handler, doc⟩
  | .custom key name answer doc => some ⟨key, .custom name answer, doc⟩
  | .alias key target doc => (latest? h target).map fun e => ⟨key, e.function, doc⟩
  | _ => none

/-- The history `h` with the registrations of steps. -/
def chronicle (h : List Entry) : List Step → List Entry
  | [] => h
  | s :: rest => chronicle ((s.registration? h).toList ++ h) rest

/-- The number of steps that registered a function, as their answers tell. -/
def registrations (steps : List Step) (answers : List Answer) : Nat :=
  (steps.zip answers).countP fun (s, a) => s.registers && a.result.isOk

def LogLine.isOverwriting : LogLine → Bool
  | .overwriting _ => true
  | _ => false

/-- The number of functions that lost their place, as a log tells. -/
def overwritings (log : List LogLine) : Nat := log.countP LogLine.isOverwriting

/-- A call logs the choices of its resolution and nothing else. -/
theorem Function.mem_log_call {R : Resolver} {C : Context} {args : List Value} {f : Function}
    {line : LogLine} (hl : line ∈ (f.call R C args).log) : ∃ k o, line = .keeping k o := by
  cases f with
  | custom name answer => cases hl
  | fixed name w h =>
    rw [call] at hl
    cases hc : w.check name args.length with
    | error e => rw [hc] at hl; cases hl
    | ok u =>
      cases hx : args.mapM (Value.coerce C.precision) with
      | error e => rw [hc, hx] at hl; cases hl
      | ok xs =>
        have hres : (handle R C h xs).log = (R.resolve C.precision (xs.map .number)).log := by
          unfold handle
          dsimp only
          split <;> rfl
        rw [hc, hx] at hl
        obtain ⟨k, o, hko, -⟩ := Resolver.mem_log_resolveFrom (hres ▸ hl)
        exact ⟨k, o, hko⟩

theorem Calculator.isOverwriting_of_mem_call {K : Calculator} {key : String} {args : List Value}
    {line : LogLine} (hl : line ∈ (K.call key args).log) : line.isOverwriting = false := by
  rw [call] at hl
  cases hf : K.registry.function key with
  | error e => rw [hf] at hl; cases hl
  | ok f =>
    rw [hf] at hl
    obtain ⟨k, o, rfl⟩ := Function.mem_log_call hl
    rfl

/-! ## True to a history -/

/-- Both dictionaries of the registry have the latest entry of each key, and every other entry of
the history has its line in the log. -/
structure Recounts (h : List Entry) (log : List LogLine) (r : Registry) : Prop where
  coherent : r.Coherent
  function?_eq : ∀ key, r.functions.get? key = (latest? h key).map Entry.function
  doc?_eq : ∀ key, r.doc? key = (latest? h key).map Entry.doc
  length_eq : h.length = r.size + overwritings log

namespace Recounts
variable {h : List Entry} {log : List LogLine} {r : Registry} {K : Calculator}

theorem empty : Recounts [] [] .empty where
  coherent := Registry.coherent_empty
  function?_eq _ := rfl
  doc?_eq _ := rfl
  length_eq := rfl

theorem insert (hr : Recounts h log r) (e : Entry) :
    Recounts (e :: h) (log ++ r.insertLog e.key) (r.insert e) where
  coherent := hr.coherent.insert e
  function?_eq := get?_insert_of_latest hr.function?_eq e
  doc?_eq := get?_insert_of_latest hr.doc?_eq e
  length_eq := by
    have hlen := hr.length_eq
    rw [List.length_cons, Registry.size, Registry.insert, Dictionary.size_insert, overwritings,
      List.countP_append, Registry.insertLog]
    unfold overwritings Registry.size at hlen
    -- the size grows, or a line is logged
    split
    · simp only [List.countP_singleton, LogLine.isOverwriting, if_true]
      omega
    · simp only [List.countP_nil]
      omega

/-- Lines about other events change nothing. -/
theorem append (hr : Recounts h log r) {more : List LogLine}
    (hm : ∀ line ∈ more, line.isOverwriting = false) : Recounts h (log ++ more) r where
  coherent := hr.coherent
  function?_eq := hr.function?_eq
  doc?_eq := hr.doc?_eq
  length_eq := by
    have hnone : more.countP LogLine.isOverwriting = 0 :=
      List.countP_eq_zero.mpr fun line hl => by simp [hm line hl]
    rw [hr.length_eq, overwritings, overwritings, List.countP_append, hnone, Nat.add_zero]

theorem registerAll (hr : Recounts h log K.registry) (table : List Signature) :
    Recounts ((table.map Signature.entry).reverse ++ h) (log ++ (K.registerAll table).2)
      (K.registerAll table).1.registry := by
  induction table generalizing K h log with
  | nil => simpa [Calculator.registerAll] using hr
  | cons s rest ih =>
    have hins : Recounts (s.entry :: h) (log ++ (K.register s.entry).2)
        (K.register s.entry).1.registry := hr.insert s.entry
    have hall := ih hins
    rw [List.append_assoc] at hall
    rw [List.map_cons, List.reverse_cons, List.append_assoc]
    exact hall

theorem create (settings : Settings) (table : List Signature) :
    Recounts (table.map Signature.entry).reverse (Calculator.create settings table).2
      (Calculator.create settings table).1.registry := by
  have hall := registerAll (K := .empty settings) empty table
  rw [List.append_nil] at hall
  refine hall.append fun line hl => ?_
  rw [List.mem_singleton.mp hl]
  rfl

/-! ## Steps -/

theorem function_eq (hr : Recounts h log r) (key : String) :
    r.function key =
      (latest? h key).elim (.error (.unknownFunction key)) fun e => .ok e.function := by
  rw [Registry.function, hr.function?_eq]
  cases latest? h key <;> rfl

theorem registerAnd (hr : Recounts h log K.registry) (f : Except Failure Function)
    (key doc : String) (reply : Function → Reply) :
    Recounts ((f.toOption.map fun g => ⟨key, g, doc⟩).toList ++ h)
      (log ++ (K.registerAnd f key doc reply).1.log) (K.registerAnd f key doc reply).2.registry := by
  cases f with
  | error e => simpa [Calculator.registerAnd, Answer.failed, Except.toOption] using hr
  | ok f => exact hr.insert ⟨key, f, doc⟩

theorem define?_toOption (key name : String) (lo hi : Int) (handler : Handler) (doc : String) :
    ((Calculator.define? name lo hi handler).toOption.map fun g => (⟨key, g, doc⟩ : Entry)) =
      (Step.define key name lo hi handler doc).registration? h := by
  rw [Calculator.define?, Step.registration?]
  cases Window.of? lo hi <;> rfl

theorem alias_toOption (hr : Recounts h log r) (key target doc : String) :
    ((r.function target).toOption.map fun g => (⟨key, g, doc⟩ : Entry)) =
      (Step.alias key target doc).registration? h := by
  rw [hr.function_eq, Step.registration?]
  cases latest? h target <;> rfl

theorem step (hr : Recounts h log K.registry) (s : Step) :
    Recounts ((s.registration? h).toList ++ h) (log ++ (K.step s).1.log)
      (K.step s).2.registry := by
  match s with
  | .call key args =>
    have hcall : Recounts h (log ++ (K.call key args).log) K.registry :=
      hr.append fun _ => Calculator.isOverwriting_of_mem_call
    simpa [Calculator.step, Step.registration?, Calculator.afterCall_registry] using hcall
  | .define key name lo hi handler doc =>
    rw [← define?_toOption]
    exact hr.registerAnd _ key doc _
  | .custom key name answer doc => exact hr.registerAnd (.ok (.custom name answer)) key doc _
  | .alias key target doc =>
    rw [← hr.alias_toOption]
    exact hr.registerAnd _ key doc _
  | .family .. | .get _ | .contains _ | .size | .names | .list =>
    simpa [Calculator.step, Step.registration?, Answer.plain, Calculator.setFamily] using hr

theorem run (hr : Recounts h log K.registry) (steps : List Step) :
    Recounts (chronicle h steps) (log ++ (K.run steps).1.flatMap Answer.log)
      (K.run steps).2.registry := by
  induction steps generalizing K h log with
  | nil => simpa [chronicle, Calculator.run] using hr
  | cons s rest ih =>
    have hrest := ih (hr.step s)
    rwa [List.append_assoc] at hrest

/-! ## Successes and failures -/

/-- A history grows with the steps that answer that they registered a function. -/
theorem isSome_registration? (hr : Recounts h log K.registry) (s : Step) :
    (s.registration? h).isSome = (s.registers && (K.step s).1.result.isOk) := by
  match s with
  | .define key name lo hi handler doc =>
    rw [← define?_toOption, Calculator.step]
    cases Calculator.define? name lo hi handler <;> rfl
  | .custom .. => rfl
  | .alias key target doc =>
    rw [← hr.alias_toOption, Calculator.step]
    cases K.registry.function target <;> rfl
  | .call .. | .family .. | .get _ | .contains _ | .size | .names | .list => rfl

theorem length_chronicle (hr : Recounts h log K.registry) (steps : List Step) :
    (chronicle h steps).length = h.length + registrations steps (K.run steps).1 := by
  induction steps generalizing K h log with
  | nil => rfl
  | cons s rest ih =>
    have hone : ((s.registration? h).toList).length =
        if (s.registers && (K.step s).1.result.isOk) = true then 1 else 0 := by
      rw [← hr.isSome_registration? s]
      cases s.registration? h <;> rfl
    rw [chronicle, ih (hr.step s), List.length_append, hone]
    simp only [registrations, Calculator.run, List.zip_cons_cons, List.countP_cons]
    omega

/-! ## What the registry tells -/

theorem mem_names_iff (hr : Recounts h log r) {key : String} :
    key ∈ r.names ↔ ∃ e ∈ h, e.key = key := by
  rw [Registry.names, Dictionary.mem_keys_iff, hr.function?_eq, ← latest?_eq_some_iff_mem]
  simp

/-- The items of the list are those of the latest entries. -/
theorem exists_of_mem_listing (hr : Recounts h log r) {ls : List Listed} (hls : r.listing = .ok ls)
    {l : Listed} (hl : l ∈ ls) : ∃ e, latest? h l.key = some e ∧ l = e.listed := by
  obtain ⟨f, hf, hlisted⟩ := Registry.exists_of_mem_listing hls hl
  obtain ⟨-, doc, hdoc, hitem⟩ := Registry.listed_eq_ok_iff.mp hlisted
  rw [hr.function_eq] at hf
  rw [hr.doc?_eq] at hdoc
  cases he : latest? h l.key with
  | none => rw [he] at hdoc; cases hdoc
  | some e =>
    rw [he] at hf hdoc
    cases hf
    cases hdoc
    have hkey : e.key = l.key := by simpa using List.find?_some he
    exact ⟨e, rfl, by rw [hitem, Entry.listed, hkey]⟩

end Recounts

namespace Calculator

/-- What becomes of a window's bounds: a function with that window under the key, or a failure. -/
theorem step_define (K : Calculator) (key name : String) (lo hi : Int) (handler : Handler)
    (doc : String) :
    (∃ w : Window, (w.lo : Int) = lo ∧ (w.hi : Int) = hi ∧
      (K.step (.define key name lo hi handler doc)).1.result =
        .ok (.function (.fixed name w handler)) ∧
      (K.step (.define key name lo hi handler doc)).2.registry.function key =
        .ok (.fixed name w handler)) ∨
    (¬ (0 ≤ lo ∧ lo ≤ hi) ∧
      (K.step (.define key name lo hi handler doc)).1.result = .error (.arityWindow name lo hi)) := by
  by_cases hw : 0 ≤ lo ∧ lo ≤ hi
  · have hof : Window.of? lo hi = some { lo := lo.toNat, hi := hi.toNat } := dif_pos hw
    refine .inl ⟨{ lo := lo.toNat, hi := hi.toNat }, Int.toNat_of_nonneg hw.1,
      Int.toNat_of_nonneg (by omega), ?_, ?_⟩
    · simp only [step, define?, hof, registerAnd]
    · simp only [step, define?, hof, registerAnd, register, Registry.function]
      rw [Registry.insert, Dictionary.get?_insert_self]
  · have hof : Window.of? lo hi = none := dif_neg hw
    refine .inr ⟨hw, ?_⟩
    simp only [step, define?, hof, registerAnd, Answer.failed]

theorem registerAnd_registry_of_error {K : Calculator} {f : Except Failure Function}
    {key doc : String} {reply : Function → Reply} {e : Failure}
    (he : (K.registerAnd f key doc reply).1.result = .error e) :
    (K.registerAnd f key doc reply).2.registry = K.registry := by
  cases f with
  | error _ => rfl
  | ok _ => cases he

/-- A step that fails registers nothing. -/
theorem step_registry_of_error {K : Calculator} {s : Step} {e : Failure}
    (he : (K.step s).1.result = .error e) : (K.step s).2.registry = K.registry := by
  match s with
  | .call key args => exact K.afterCall_registry key args
  | .define .. | .alias .. => exact registerAnd_registry_of_error he
  | .custom .. => cases he
  | .family .. | .get _ | .contains _ | .size | .names | .list => rfl

/-- With the same keys in both dictionaries there is a list of the functions, if all of them can
be listed. -/
theorem exists_step_list {K : Calculator} (hK : K.registry.Coherent)
    (hlistable : ∀ key f, K.registry.function key = .ok f → f.Listable) :
    ∃ ls, K.registry.listing = .ok ls ∧ (K.step .list).1 = .plain (.listing ls) := by
  cases hls : K.registry.listing with
  | error e =>
    obtain ⟨-, key, f, hf, hwide⟩ := hK.listing_error hls
    exact absurd (hlistable key f hf) hwide
  | ok ls => exact ⟨ls, rfl, by rw [step, hls]; rfl⟩

/-- One function that cannot be listed is enough for the list to fail. -/
theorem step_list_of_not_listable {K : Calculator} (hK : K.registry.Coherent) {key : String}
    {f : Function} (hf : K.registry.function key = .ok f) (hwide : ¬ f.Listable) :
    (K.step .list).1 = .failed .listTooLong := by
  cases hls : K.registry.listing with
  | error e =>
    obtain ⟨rfl, -⟩ := hK.listing_error hls
    rw [step, hls]
    rfl
  | ok ls => exact absurd (Registry.listable_of_listing hls hf) hwide

/-- **The registry after a run.** Take a calculator with the functions of any table through
any steps, and let `h` be the history of the registrations that succeeded. Then functions
and documentation have the same keys and are those of the latest registration under each;
the names increase and are the keys of the history. The list has one item for each name, in
order, unless there is a function whose counts do not fit into a list: then it fails, whatever
the other functions are. Windows are proper. Every registration gave the registry a new key or
the log a line. Whatever step comes next, it registers what the history says if it succeeds and
leaves both dictionaries alone if it fails. -/
theorem registry_after_run (settings : Settings) (table : List Signature) (steps : List Step) :
    let made := create settings table
    let ran := made.1.run steps
    let K := ran.2
    let h := chronicle (table.map Signature.entry).reverse steps
    (K.registry.functions.keys = K.registry.docs.keys ∧
      ∀ key, K.registry.doc? key = (latest? h key).map Entry.doc ∧
        K.registry.function key =
          (latest? h key).elim (.error (.unknownFunction key)) fun e => .ok e.function) ∧
    (K.registry.names.Pairwise (· < ·) ∧
      ∀ key, key ∈ K.registry.names ↔ ∃ e ∈ h, e.key = key) ∧
    ((∀ key f, K.registry.function key = .ok f → f.Listable) →
      ∃ ls, (K.step .list).1 = .plain (.listing ls) ∧ ls.map Listed.key = K.registry.names ∧
        ∀ l ∈ ls, ∃ e, latest? h l.key = some e ∧ l = e.listed) ∧
    (∀ key f, K.registry.function key = .ok f → ¬ f.Listable →
      (K.step .list).1 = .failed .listTooLong) ∧
    (∀ key name w handler, K.registry.function key = .ok (.fixed name w handler) →
      (0 : Int) ≤ w.lo ∧ (w.lo : Int) ≤ w.hi) ∧
    (h.length = table.length + registrations steps ran.1 ∧
      table.length + registrations steps ran.1 =
        K.registry.size + overwritings (made.2 ++ ran.1.flatMap Answer.log)) ∧
    (∀ key name lo hi handler doc,
      (∃ w : Window, (w.lo : Int) = lo ∧ (w.hi : Int) = hi ∧
        (K.step (.define key name lo hi handler doc)).1.result =
          .ok (.function (.fixed name w handler)) ∧
        (K.step (.define key name lo hi handler doc)).2.registry.function key =
          .ok (.fixed name w handler)) ∨
      (¬ (0 ≤ lo ∧ lo ≤ hi) ∧
        (K.step (.define key name lo hi handler doc)).1.result =
          .error (.arityWindow name lo hi))) ∧
    ∀ s, (s.registration? h).isSome = (s.registers && (K.step s).1.result.isOk) ∧
      ∀ e, (K.step s).1.result = .error e → (K.step s).2.registry = K.registry := by
  intro made ran K h
  have hmade := Recounts.create settings table
  have hr : Recounts h (made.2 ++ ran.1.flatMap Answer.log) K.registry := hmade.run steps
  have hlen : h.length = table.length + registrations steps ran.1 := by
    rw [hmade.length_chronicle steps, List.length_reverse, List.length_map]
  refine ⟨⟨hr.coherent, fun key => ⟨hr.doc?_eq key, hr.function_eq key⟩⟩,
    ⟨K.registry.functions.keys_increasing, fun key => hr.mem_names_iff⟩, fun hlistable => ?_,
    fun key f => step_list_of_not_listable hr.coherent, fun key name w handler _ => ?_,
    ⟨hlen, hlen ▸ hr.length_eq⟩, K.step_define,
    fun s => ⟨hr.isSome_registration? s, fun e => step_registry_of_error⟩⟩
  · obtain ⟨ls, hls, hstep⟩ := exists_step_list hr.coherent hlistable
    exact ⟨ls, hstep, Registry.map_key_listing hls, fun l => hr.exists_of_mem_listing hls⟩
  · exact ⟨Int.natCast_nonneg _, Int.ofNat_le.mpr w.lo_le_hi⟩

/-- A function of one argument is registered and can be listed, and an alias of an unknown one is
not registered. -/
theorem registry_after_run_defined :
    let w := Window.exactly 1
    let steps : List Step := [.define "f" "count" w.lo w.hi .count "", .alias "g" "h" ""]
    let K := ((create ⟨.default, false⟩ []).1.run steps).2
    K.registry.function "f" = .ok (.fixed "count" w .count) ∧
      ((0 : Int) ≤ w.lo ∧ (w.lo : Int) ≤ w.hi) ∧
      (∀ key f, K.registry.function key = .ok f → f.Listable) ∧
      (∃ ls, (K.step .list).1 = .plain (.listing ls) ∧ ls.map Listed.key = ["f"]) ∧
      (K.step (.alias "g" "h" "")).1.result = .error (.unknownFunction "h") ∧
      (K.step (.alias "g" "h" "")).2.registry = K.registry := by
  intro w steps K
  obtain ⟨-, -, hlist, -, hwindow, -, -, hstep⟩ := registry_after_run ⟨.default, false⟩ [] steps
  have hf : K.registry.function "f" = .ok (.fixed "count" w .count) := rfl
  have he : (K.step (.alias "g" "h" "")).1.result = .error (.unknownFunction "h") := rfl
  have hlistable : ∀ key f, K.registry.function key = .ok f → f.Listable := by
    intro key f hkey
    have hentry := Dictionary.mem_entries_iff.mpr (Registry.function_eq_ok_iff.mp hkey)
    obtain ⟨rfl, rfl⟩ := Prod.mk.inj (List.mem_singleton.mp hentry)
    rintro _ ⟨⟩
    decide
  obtain ⟨ls, hls, hkeys, -⟩ := hlist hlistable
  exact ⟨hf, hwindow _ _ _ _ hf, hlistable, ⟨ls, hls, hkeys⟩, he, (hstep _).2 _ he⟩

/-- A function for any number of arguments up to the length of the longest list is registered and
can be called, but after that there is no list of functions any more. -/
theorem registry_after_run_too_wide :
    let add : Signature := forward "add" (.binary .add) "add(x,y): x + y"
    let steps : List Step := [.define "f" "f" 0 longestList (.constant (.integer 0)) ""]
    let ran := (create ⟨.default, false⟩ [add]).1.run steps
    let K := ran.2
    (∃ f, ran.1.map Answer.result = [.ok (.function f)] ∧ K.registry.function "f" = .ok f) ∧
      (K.step (.call "f" [])).1 = .plain (.value (.integer 0)) ∧
      K.registry.names = ["add", "f"] ∧
      (K.step .list).1 = .failed .listTooLong := by
  intro add steps ran K
  have hcoherent := ((Recounts.create ⟨.default, false⟩ [add]).run steps).coherent
  rcases (create ⟨.default, false⟩ [add]).1.step_define "f" "f" 0 longestList
    (.constant (.integer 0)) "" with ⟨w, hlo, hhi, hans, hf⟩ | ⟨hnot, -⟩
  · have hwide : ¬ (Function.fixed "f" w (.constant (.integer 0))).Listable := by
      intro h
      have hsize := h w rfl
      unfold Window.size at hsize
      omega
    have hadmits : w.Admits ([] : List Value).length := ⟨by simp; omega, Nat.zero_le _⟩
    have hcall : K.call "f" [] = ⟨.ok (.integer 0), [], []⟩ := by
      rw [call, show K.registry.function "f" = _ from hf]
      exact Function.call_fixed_of_admits hadmits rfl
    exact ⟨⟨_, congrArg (fun a => [a]) hans, hf⟩, by rw [step, hcall]; rfl, by decide +kernel,
      step_list_of_not_listable hcoherent hf hwide⟩
  · exact absurd ⟨Int.le_refl 0, Int.natCast_nonneg _⟩ hnot

end Calculator

end TowerCalc
