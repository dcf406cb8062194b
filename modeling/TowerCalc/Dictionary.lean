/-!
# Dictionaries

Values under keys, in increasing order of the keys by code points. A key has one value: the
latest that was put there.

## Results

* `Dictionary.insert`: puts a value under a key, in place of any before.
* `Dictionary.get?`, `Dictionary.contains`, `Dictionary.keys`, `Dictionary.size`.
* `get?_insert_self`, `get?_insert_of_ne`, `size_insert`: what an insertion does to lookups and to
  the size.
* `mem_entries_iff`, `mem_keys_iff`: entries and keys are those that lookups find.
* `keys_insert_congr`: the keys of a dictionary depend on the keys of what was put there only.
-/
namespace TowerCalc

variable {α β : Type} {k key : String} {v : α}

/-- Entries in increasing order of their keys. -/
def Increasing (es : List (String × α)) : Prop := es.Pairwise fun a b => a.1 < b.1

/-- Puts a value in its place among increasing entries; one of the same key goes. -/
def insertEntry (k : String) (v : α) : List (String × α) → List (String × α)
  | [] => [(k, v)]
  | d :: ds =>
    if k < d.1 then (k, v) :: d :: ds
    else if k = d.1 then (k, v) :: ds
    else d :: insertEntry k v ds

theorem mem_insertEntry {a : String × α} {es : List (String × α)} (h : a ∈ insertEntry k v es) :
    a = (k, v) ∨ a ∈ es := by
  induction es with
  | nil => simpa [insertEntry] using h
  | cons d ds ih =>
    unfold insertEntry at h
    split at h
    · simpa using h
    · split at h
      · grind
      · grind

theorem key_lt_of_not_lt {a b : String} (h : ¬ a < b) (hne : a ≠ b) : b < a := by
  rcases String.le_total a b with hab | hba
  · exact absurd (String.le_antisymm hab (String.not_lt.mp h)) hne
  · exact String.not_le.mp fun hab => hne (String.le_antisymm hab hba)

theorem Increasing.insertEntry {es : List (String × α)} (h : Increasing es) :
    Increasing (insertEntry k v es) := by
  induction es with
  | nil => simp [Increasing, TowerCalc.insertEntry]
  | cons d ds ih =>
    obtain ⟨hd, hds⟩ := List.pairwise_cons.mp h
    unfold TowerCalc.insertEntry
    split
    case isTrue hlt =>
      refine List.pairwise_cons.mpr ⟨fun a ha => ?_, h⟩
      rcases List.mem_cons.mp ha with rfl | ha
      · exact hlt
      · exact String.lt_trans hlt (hd a ha)
    case isFalse hlt =>
      split
      case isTrue heq => exact List.pairwise_cons.mpr ⟨fun a ha => heq ▸ hd a ha, hds⟩
      case isFalse hne =>
        refine List.pairwise_cons.mpr ⟨fun a ha => ?_, ih hds⟩
        rcases mem_insertEntry ha with rfl | ha
        · exact key_lt_of_not_lt hlt hne
        · exact hd a ha

structure Dictionary (α : Type) where
  entries : List (String × α)
  increasing : Increasing entries

namespace Dictionary

def empty : Dictionary α := ⟨[], .nil⟩

def insert (d : Dictionary α) (k : String) (v : α) : Dictionary α :=
  ⟨insertEntry k v d.entries, d.increasing.insertEntry⟩

/-- The value of a key. -/
def get? (d : Dictionary α) (key : String) : Option α :=
  (d.entries.find? fun e => e.1 = key).map Prod.snd

def contains (d : Dictionary α) (key : String) : Bool := (d.get? key).isSome

def size (d : Dictionary α) : Nat := d.entries.length

/-- The keys in increasing order. -/
def keys (d : Dictionary α) : List String := d.entries.map Prod.fst

/-! ## Lookups -/

theorem find_insertEntry_self (k : String) (v : α) (es : List (String × α)) :
    (insertEntry k v es).find? (fun a => a.1 = k) = some (k, v) := by
  induction es with
  | nil => simp [insertEntry]
  | cons d ds ih =>
    unfold insertEntry
    split
    · simp
    · split
      · simp
      · next hne => simp [Ne.symm hne, ih]

theorem find_insertEntry_of_ne (h : k ≠ key) (es : List (String × α)) :
    (insertEntry k v es).find? (fun a => a.1 = key) = es.find? (fun a => a.1 = key) := by
  induction es with
  | nil => simp [insertEntry, h]
  | cons d ds ih =>
    unfold insertEntry
    split
    · simp [h]
    · split
      · next heq => simp [h, heq ▸ h]
      · simp [List.find?_cons, ih]

@[simp]
theorem get?_insert_self (d : Dictionary α) (k : String) (v : α) :
    (d.insert k v).get? k = some v := by
  rw [get?, insert, find_insertEntry_self]
  rfl

theorem get?_insert_of_ne (d : Dictionary α) (v : α) (h : k ≠ key) :
    (d.insert k v).get? key = d.get? key := by
  rw [get?, insert, find_insertEntry_of_ne h, get?]

/-- No two entries have one key: each is found under its own. -/
theorem mem_entries_iff {d : Dictionary α} : (k, v) ∈ d.entries ↔ d.get? k = some v := by
  constructor
  · intro h
    obtain ⟨es, hes⟩ := d
    unfold get?
    dsimp only at *
    induction es with
    | nil => cases h
    | cons e es ih =>
      obtain ⟨he, hes⟩ := List.pairwise_cons.mp hes
      rcases List.mem_cons.mp h with rfl | h
      · simp
      · have hne : e.1 ≠ k := fun heq => String.lt_irrefl _ (heq ▸ he (k, v) h)
        simpa [hne] using ih hes h
  · intro h
    obtain ⟨e, hfind, rfl⟩ := Option.map_eq_some_iff.mp h
    have hkey : e.1 = k := by simpa using List.find?_some hfind
    exact hkey ▸ List.mem_of_find?_eq_some hfind

theorem mem_keys_iff {d : Dictionary α} : k ∈ d.keys ↔ ∃ v, d.get? k = some v := by
  constructor
  · intro h
    obtain ⟨e, he, rfl⟩ := List.mem_map.mp h
    exact ⟨e.2, mem_entries_iff.mp he⟩
  · rintro ⟨v, hv⟩
    exact List.mem_map.mpr ⟨(k, v), mem_entries_iff.mpr hv, rfl⟩

theorem keys_increasing (d : Dictionary α) : d.keys.Pairwise (· < ·) :=
  List.pairwise_map.mpr d.increasing

/-! ## Sizes and keys -/

theorem length_insertEntry {es : List (String × α)} (h : Increasing es) :
    (insertEntry k v es).length =
      if (es.find? fun a => a.1 = k).isSome then es.length else es.length + 1 := by
  induction es with
  | nil => simp [insertEntry]
  | cons d ds ih =>
    obtain ⟨hd, hds⟩ := List.pairwise_cons.mp h
    unfold insertEntry
    split
    case isTrue hlt =>
      -- all keys of the list are above the new one
      have habove : ∀ a ∈ d :: ds, a.1 ≠ k := by
        intro a ha heq
        rcases List.mem_cons.mp ha with rfl | ha
        · exact String.lt_irrefl _ (heq ▸ hlt)
        · exact String.lt_irrefl _ (heq ▸ String.lt_trans hlt (hd a ha))
      have hnone : (d :: ds).find? (fun a => a.1 = k) = none :=
        List.find?_eq_none.mpr fun a ha => by simpa using habove a ha
      rw [hnone]
      simp
    case isFalse =>
      split
      case isTrue heq => simp [heq]
      case isFalse hne =>
        rw [List.length_cons, ih hds, List.find?_cons_of_neg (by simpa using Ne.symm hne)]
        split <;> rfl

/-- An insertion makes the dictionary larger unless the key was taken. -/
theorem size_insert (d : Dictionary α) (k : String) (v : α) :
    (d.insert k v).size = if d.contains k then d.size else d.size + 1 := by
  rw [size, insert, length_insertEntry d.increasing, contains, get?, Option.isSome_map, size]

theorem map_fst_insertEntry_congr {es : List (String × α)} {fs : List (String × β)}
    (h : es.map Prod.fst = fs.map Prod.fst) (k : String) (v : α) (w : β) :
    (insertEntry k v es).map Prod.fst = (insertEntry k w fs).map Prod.fst := by
  induction es generalizing fs with
  | nil =>
    obtain rfl := List.map_eq_nil_iff.mp h.symm
    rfl
  | cons d ds ih =>
    cases fs with
    | nil => cases h
    | cons f fs =>
      obtain ⟨hhead, htail⟩ := List.cons_eq_cons.mp h
      unfold insertEntry
      rw [hhead]
      split
      · simp [hhead, htail]
      · split
        · simp [htail]
        · simp [hhead, ih htail]

/-- What is under the keys has no part in their order. -/
theorem keys_insert_congr {d : Dictionary α} {d' : Dictionary β} (h : d.keys = d'.keys)
    (k : String) (v : α) (w : β) : (d.insert k v).keys = (d'.insert k w).keys :=
  map_fst_insertEntry_congr h k v w

end Dictionary

end TowerCalc
