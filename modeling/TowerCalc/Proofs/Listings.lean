import TowerCalc.Registry
import TowerCalc.Proofs.Calls

/-!
# The list of functions

The list tells of each function of a registry, in the order of the keys. It takes the counts of a
window into memory one by one, and so it fails over a window that is too wide for that. Nothing
else can stand in its way as long as the two dictionaries of the registry have the same keys.

## Results

* `Function.Listable`: the counts of the function fit into a list; `counts_of_listable`.
* `exists_of_mem_listing`, `map_key_listing`: what the items of the list are, and their order.
* `listable_of_listing`, `Coherent.listing_error`: when there is a list, and when there is none.
-/
namespace TowerCalc

/-- The counts of the function fit into a list. -/
def Function.Listable (f : Function) : Prop := ∀ w ∈ f.window?, w.size ≤ longestList

namespace Function
variable {f : Function}

theorem counts_of_listable (h : f.Listable) : f.counts = .ok (f.window?.map Window.admitted) := by
  rw [counts]
  cases hw : f.window? with
  | none => rfl
  | some w => simp only [Window.counts, if_pos (h w hw), Except.map, Option.map]

theorem counts_of_not_listable (h : ¬ f.Listable) : f.counts = .error .listTooLong := by
  simp only [Listable, not_forall] at h
  obtain ⟨w, hw, hwide⟩ := h
  rw [counts, Option.mem_def.mp hw]
  simp only [Window.counts, if_neg hwide, Except.map]

end Function

namespace Registry
variable {r : Registry} {key : String} {f : Function} {l : Listed} {ls : List Listed}

/-- What is told of a function that can be listed. -/
theorem listed_eq_ok_iff : r.listed key f = .ok l ↔ f.Listable ∧ ∃ doc, r.doc? key = some doc ∧
    l = ⟨key, f.name, f.window?.map Window.admitted, doc⟩ := by
  by_cases hf : f.Listable
  · rw [listed, Function.counts_of_listable hf]
    cases r.doc? key with
    | none => simp [bind, Except.bind]
    | some doc => simp [bind, Except.bind, pure, Except.pure, hf, eq_comm]
  · rw [listed, Function.counts_of_not_listable hf]
    simp [bind, Except.bind, hf]

/-- The items of the list, one for each entry. -/
theorem forall₂_of_listing (h : r.listing = .ok ls) :
    List.Forall₂ (fun e l => r.listed e.1 e.2 = .ok l) r.functions.entries ls :=
  forall₂_of_mapM h

theorem exists_of_mem_listing (h : r.listing = .ok ls) (hl : l ∈ ls) :
    ∃ f, r.function l.key = .ok f ∧ r.listed l.key f = .ok l := by
  obtain ⟨⟨key, f⟩, hentry, hlisted⟩ := exists_mem_right (forall₂_of_listing h).flip hl
  obtain ⟨-, doc, -, rfl⟩ := listed_eq_ok_iff.mp hlisted
  exact ⟨f, function_eq_ok_iff.mpr (Dictionary.mem_entries_iff.mp hentry), hlisted⟩

/-- There is one item for each key, in order. -/
theorem map_key_listing (h : r.listing = .ok ls) : ls.map Listed.key = r.names := by
  have hkeys : List.Forall₂ (· = ·) (ls.map Listed.key) r.names := by
    rw [names, Dictionary.keys, List.forall₂_map_left_iff, List.forall₂_map_right_iff]
    refine (forall₂_of_listing h).flip.imp fun l e hlisted => ?_
    obtain ⟨-, doc, -, rfl⟩ := listed_eq_ok_iff.mp hlisted
    rfl
  rwa [List.forall₂_eq_eq_eq] at hkeys

theorem listable_of_listing (h : r.listing = .ok ls) (hf : r.function key = .ok f) :
    f.Listable := by
  have hentry := Dictionary.mem_entries_iff.mpr (function_eq_ok_iff.mp hf)
  obtain ⟨l, -, hlisted⟩ := exists_mem_right (forall₂_of_listing h) hentry
  exact (listed_eq_ok_iff.mp hlisted).1

/-- With the same keys in both dictionaries, only a window stands in the way of the list. -/
theorem Coherent.listing_error (hr : r.Coherent) {e : Failure} (h : r.listing = .error e) :
    e = .listTooLong ∧ ∃ key f, r.function key = .ok f ∧ ¬ f.Listable := by
  obtain ⟨⟨key, f⟩, hentry, hlisted⟩ := exists_of_mapM_error h
  have hget := Dictionary.mem_entries_iff.mp hentry
  obtain ⟨doc, hdoc⟩ := hr.exists_doc hget
  by_cases hf : f.Listable
  · have := listed_eq_ok_iff.mpr ⟨hf, doc, hdoc, rfl⟩
    cases hlisted.symm.trans this
  · rw [listed, Function.counts_of_not_listable hf] at hlisted
    cases hlisted
    exact ⟨rfl, key, f, function_eq_ok_iff.mpr hget, hf⟩

end Registry

end TowerCalc
