import TowerCalc.Settings
import Mathlib.Data.List.Flatten
import Mathlib.Data.List.Forall2

/-!
# Settings from overrides and the environment

Each setting is what its override says, else what its variable says, else its default. A value
that is passed over is not looked at, so that it does no harm if it is malformed. Both settings
are read before anything is reported, and each complains for itself.

The text of a flag is read without the blanks around it and in lower case. Only ASCII letters
have a flag's letters for lower case; a text with any other character is no flag, whatever its
lower case is.

## Results

* `Settings.Chosen`: the outcome for one setting, by where its value comes from.
* `Settings.validate_eq_ok_iff`, `validate_eq_error`: settings and complaints by field.
* `Settings.load_congr`: the variables that matter.
* `LowerCase`, `RawSetting.toFlag_lowerCase`: a flag is its trimmed text in lower case.
* `RawSetting.toFlag_text_eq_ok_iff`, `toPrecision_integer_eq_ok_iff`: what texts and integers are
  read as.
* `Settings.settings_merged`: what loading settings comes to.
-/
namespace TowerCalc

/-! ## Blanks around a text -/

/-- There is no blank at either end. -/
def Trimmed (cs : List Char) : Prop :=
  (∀ c, cs.head? = some c → isBlank c = false) ∧ ∀ c, cs.getLast? = some c → isBlank c = false

theorem isBlank_of_head?_dropWhile {cs : List Char} {c : Char}
    (h : (cs.dropWhile isBlank).head? = some c) : isBlank c = false := by
  have := List.head?_dropWhile_not isBlank cs
  rw [h] at this
  exact this

theorem dropWhile_eq_self {cs : List Char} (h : ∀ c, cs.head? = some c → isBlank c = false) :
    cs.dropWhile isBlank = cs := by
  cases cs with
  | nil => rfl
  | cons c cs => simp [h c rfl]

theorem trimmed_trimBlanks (cs : List Char) : Trimmed (trimBlanks cs) := by
  rw [trimBlanks]
  constructor
  · -- the first character is still that of the text without the blanks in front
    intro c hc
    obtain ⟨t, ht⟩ := List.dropWhile_suffix isBlank (l := (cs.dropWhile isBlank).reverse)
    rw [List.head?_reverse] at hc
    have hfirst : (cs.dropWhile isBlank).head? = some c := by
      rw [← List.getLast?_reverse, ← ht, List.getLast?_append, hc, Option.some_or]
    exact isBlank_of_head?_dropWhile hfirst
  · intro c hc
    rw [List.getLast?_reverse] at hc
    exact isBlank_of_head?_dropWhile hc

theorem Trimmed.trimBlanks_eq {cs : List Char} (h : Trimmed cs) : trimBlanks cs = cs := by
  have hlast : cs.reverse.dropWhile isBlank = cs.reverse := by
    refine dropWhile_eq_self fun c hc => ?_
    rw [List.head?_reverse] at hc
    exact h.2 c hc
  rw [trimBlanks, dropWhile_eq_self h.1, hlast, List.reverse_reverse]

/-! ## Lower case -/

/-- Only the letters from `A` to `Z` move, by 32 places. -/
theorem toLower_cases (c : Char) :
    (65 ≤ c.toNat ∧ c.toNat ≤ 90 ∧ c.toLower.toNat = c.toNat + 32) ∨
      ((c.toNat < 65 ∨ 90 < c.toNat) ∧ c.toLower = c) := by
  by_cases h : c.val ≥ 'A'.val ∧ c.val ≤ 'Z'.val
  · have hle : 65 ≤ c.toNat ∧ c.toNat ≤ 90 := h
    have hval : c.toLower.val = c.val + 32 := congrArg Char.val (dif_pos h)
    have h32 : (32 : UInt32).toNat = 32 := rfl
    refine Or.inl ⟨hle.1, hle.2, ?_⟩
    rw [← Char.toNat_val, hval, UInt32.toNat_add, Char.toNat_val]
    omega
  · have hlt : ¬(65 ≤ c.toNat ∧ c.toNat ≤ 90) := h
    exact Or.inr ⟨by omega, dif_neg h⟩

theorem toLower_toLower (c : Char) : c.toLower.toLower = c.toLower := by
  obtain ⟨hge, hle, hlow⟩ | ⟨-, hlow⟩ := toLower_cases c
  · obtain ⟨_, _, _⟩ | ⟨_, hsame⟩ := toLower_cases c.toLower
    · omega
    · exact hsame
  · rw [hlow, hlow]

theorem toLower_eq_self {c : Char} (h : 128 ≤ c.toNat) : c.toLower = c := by
  obtain ⟨_, _, _⟩ | ⟨_, hsame⟩ := toLower_cases c
  · omega
  · exact hsame

theorem isBlank_eq_false {c : Char} (h : 33 ≤ c.toNat) (h' : c.toNat < 128) :
    isBlank c = false := by
  simp [isBlank, Char.le_def, UInt32.le_iff_toNat_le, ← Char.toNat_inj]
  omega

theorem isBlank_toLower {c : Char} (h : isBlank c = false) : isBlank c.toLower = false := by
  obtain ⟨_, _, _⟩ | ⟨_, hsame⟩ := toLower_cases c
  · exact isBlank_eq_false (by omega) (by omega)
  · rw [hsame, h]

/-- The character is in no flag, in either case. -/
def NoFlagLetter (c : Char) : Prop :=
  ∀ word ∈ RawSetting.onWords ++ RawSetting.offWords, c.toLower ∉ word.toList

theorem noFlagLetter_of_le {c : Char} (h : 128 ≤ c.toNat) : NoFlagLetter c := by
  have hascii : ∀ word ∈ RawSetting.onWords ++ RawSetting.offWords,
      ∀ d ∈ word.toList, d.toNat < 128 := by
    simp [RawSetting.onWords, RawSetting.offWords]
  intro word hword hc
  have := hascii word hword c.toLower hc
  rw [toLower_eq_self h] at this
  omega

/-- What may stand for a character in the lower case of a text. A character that is not ASCII
may have a lower case of several characters, or one that depends on its place in the text; some
of it is always foreign to the flags. -/
inductive LowersTo : Char → List Char → Prop
  | ascii (c : Char) (h : c.toNat < 128) : LowersTo c [c.toLower]
  | unchanged (c : Char) (h : 128 ≤ c.toNat) : LowersTo c [c]
  | changed (c : Char) (w : List Char) (h : 128 ≤ c.toNat) (hc : isBlank c = false)
      (hw : ∀ d ∈ w, isBlank d = false) (hd : ∃ d ∈ w, NoFlagLetter d) : LowersTo c w

/-- The second text is the first in lower case. -/
def LowerCase (cs ds : List Char) : Prop :=
  ∃ ws, List.Forall₂ LowersTo cs ws ∧ ws.flatten = ds

namespace LowersTo

variable {c : Char} {w : List Char}

theorem ne_nil (h : LowersTo c w) : w ≠ [] := by
  cases h with
  | ascii | unchanged => exact List.cons_ne_nil _ _
  | changed _ h hc hw hd =>
    obtain ⟨d, hd, -⟩ := hd
    exact List.ne_nil_of_mem hd

theorem isBlank_eq_false (h : LowersTo c w) (hc : isBlank c = false) {d : Char} (hd : d ∈ w) :
    isBlank d = false := by
  cases h with
  | ascii =>
    rw [List.mem_singleton.mp hd]
    exact isBlank_toLower hc
  | unchanged =>
    rw [List.mem_singleton.mp hd]
    exact hc
  | changed _ h hc hw => exact hw d hd

theorem eq_toLower (h : LowersTo c w) (hc : c.toNat < 128) : w = [c.toLower] := by
  cases h with
  | ascii => rfl
  | unchanged h => omega
  | changed _ h => omega

theorem exists_noFlagLetter (h : LowersTo c w) (hc : 128 ≤ c.toNat) :
    ∃ d ∈ w, NoFlagLetter d := by
  cases h with
  | ascii h => omega
  | unchanged => exact ⟨c, List.mem_singleton_self c, noFlagLetter_of_le hc⟩
  | changed _ h hb hw hd => exact hd

theorem reverse (h : LowersTo c w) : LowersTo c w.reverse := by
  cases h with
  | ascii h => exact ascii c h
  | unchanged h => exact unchanged c h
  | changed _ h hc hw hd =>
    exact changed c w.reverse h hc (by simpa only [List.mem_reverse] using hw)
      (by simpa only [List.mem_reverse] using hd)

end LowersTo

namespace LowerCase

variable {cs ds : List Char}

theorem reverse (h : LowerCase cs ds) : LowerCase cs.reverse ds.reverse := by
  obtain ⟨ws, hws, rfl⟩ := h
  refine ⟨(ws.map List.reverse).reverse, ?_, List.reverse_flatten.symm⟩
  rw [List.forall₂_reverse_iff, List.forall₂_map_right_iff]
  exact hws.imp fun _ _ hw => hw.reverse

theorem isBlank_head? (h : LowerCase cs ds) (hcs : ∀ c, cs.head? = some c → isBlank c = false) :
    ∀ d, ds.head? = some d → isBlank d = false := by
  obtain ⟨ws, hws, rfl⟩ := h
  cases hws with
  | nil =>
    intro d hd
    cases hd
  | cons hw _ =>
    intro d hd
    rw [List.flatten_cons, List.head?_append_of_ne_nil _ hw.ne_nil] at hd
    exact hw.isBlank_eq_false (hcs _ rfl) (List.mem_of_head? hd)

theorem trimmed (h : LowerCase cs ds) (hcs : Trimmed cs) : Trimmed ds := by
  refine ⟨h.isBlank_head? hcs.1, ?_⟩
  intro d hd
  rw [List.getLast?_eq_head?_reverse] at hd
  refine h.reverse.isBlank_head? (fun c hc => hcs.2 c ?_) d hd
  rw [List.getLast?_eq_head?_reverse, hc]

theorem eq_map_toLower (h : LowerCase cs ds) (hcs : ∀ c ∈ cs, c.toNat < 128) :
    ds = cs.map Char.toLower := by
  obtain ⟨ws, hws, rfl⟩ := h
  induction hws with
  | nil => rfl
  | cons hw _ ih =>
    rw [List.forall_mem_cons] at hcs
    rw [List.flatten_cons, hw.eq_toLower hcs.1, ih hcs.2]
    rfl

theorem exists_noFlagLetter (h : LowerCase cs ds) {c : Char} (hc : c ∈ cs)
    (hge : 128 ≤ c.toNat) : ∃ d ∈ ds, NoFlagLetter d := by
  obtain ⟨ws, hws, rfl⟩ := h
  induction hws with
  | nil => cases hc
  | cons hw _ ih =>
    rw [List.flatten_cons]
    cases hc with
    | head =>
      obtain ⟨d, hd, hno⟩ := hw.exists_noFlagLetter hge
      exact ⟨d, List.mem_append_left _ hd, hno⟩
    | tail _ hc =>
      obtain ⟨d, hd, hno⟩ := ih hc
      exact ⟨d, List.mem_append_right _ hd, hno⟩

/-- Lower case letter by letter, with ASCII letters only. -/
theorem map_toLower (cs : List Char) : LowerCase cs (cs.map Char.toLower) := by
  refine ⟨cs.map fun c => [c.toLower], ?_, ?_⟩
  · rw [List.forall₂_map_right_iff, List.forall₂_same]
    intro c _
    by_cases h : c.toNat < 128
    · exact .ascii c h
    · rw [toLower_eq_self (by omega)]
      exact .unchanged c (by omega)
  · rw [← List.flatMap_def, ← List.map_eq_flatMap]

end LowerCase

/-! ## Flags -/

namespace RawSetting

theorem flagWord_toList (s : String) :
    (flagWord s).toList = (trimBlanks s.toList).map Char.toLower := String.toList_ofList

theorem lowerCase_flagWord (s : String) :
    LowerCase (trimBlanks s.toList) (flagWord s).toList := by
  rw [flagWord_toList]
  exact LowerCase.map_toLower _

theorem toFlag_text_eq_ok_iff (s : String) (b : Bool) :
    (text s).toFlag = .ok b ↔ flagWord s ∈ if b then onWords else offWords := by
  have hdisjoint : ∀ word ∈ onWords, word ∉ offWords := by decide
  rw [toFlag]
  by_cases hon : flagWord s ∈ onWords
  · cases b <;> simp [hon, hdisjoint]
  · by_cases hoff : flagWord s ∈ offWords
    · cases b <;> simp [hon, hoff]
    · cases b <;> simp [hon, hoff]

theorem toFlag_text_ne_ok {s : String} {d : Char} (hd : d ∈ trimBlanks s.toList)
    (hno : NoFlagLetter d) (b : Bool) : (text s).toFlag ≠ .ok b := by
  intro h
  rw [toFlag_text_eq_ok_iff] at h
  refine hno (flagWord s) ?_ ?_
  · cases b
    · exact List.mem_append_right _ h
    · exact List.mem_append_left _ h
  · rw [flagWord_toList]
    exact List.mem_map_of_mem hd

/-- A flag is judged as its trimmed text in lower case. -/
theorem toFlag_lowerCase {s t : String} (h : LowerCase (trimBlanks s.toList) t.toList) (b : Bool) :
    (text t).toFlag = .ok b ↔ (text s).toFlag = .ok b := by
  have ht : trimBlanks t.toList = t.toList := (h.trimmed (trimmed_trimBlanks _)).trimBlanks_eq
  by_cases hascii : ∀ c ∈ trimBlanks s.toList, c.toNat < 128
  · have hword : flagWord t = flagWord s := by
      rw [← String.toList_inj, flagWord_toList, flagWord_toList, ht, h.eq_map_toLower hascii,
        List.map_map]
      exact List.map_congr_left fun c _ => toLower_toLower c
    rw [toFlag_text_eq_ok_iff, toFlag_text_eq_ok_iff, hword]
  · -- a letter that is not ASCII is in neither kind of flag, before and after
    simp only [not_forall, Nat.not_lt] at hascii
    obtain ⟨c, hc, hge⟩ := hascii
    obtain ⟨d, hd, hno⟩ := h.exists_noFlagLetter hc hge
    rw [← ht] at hd
    exact iff_of_false (toFlag_text_ne_ok hd hno b)
      (toFlag_text_ne_ok hc (noFlagLetter_of_le hge) b)

/-! ## Precisions -/

/-- An integer is read as the precision of so many digits, if it is one. -/
theorem toPrecision_integer_eq_ok_iff {n : Int} {P : Precision} :
    (integer n).toPrecision = .ok P ↔ (P.digits : Int) = n := by
  obtain ⟨d, hd⟩ := P
  simp only [toPrecision, toInteger, Precision.ofInt?]
  by_cases hn : 0 < n
  · rw [dif_pos hn]
    simp only [Except.ok.injEq, Precision.mk.injEq]
    omega
  · rw [dif_neg hn]
    simp only [reduceCtorEq, false_iff]
    omega

end RawSetting

/-! ## One setting -/

namespace Settings

/-- The outcome for one setting, by where its value comes from: an override, else a variable,
else the default. -/
inductive Chosen {α : Type} (read : RawSetting → Except Issue α) (default : α) :
    Option RawSetting → Option String → Except Issue α → Prop
  | overridden (v : RawSetting) (given : Option String) :
    Chosen read default (some v) given (read v)
  | fromEnvironment (s : String) : Chosen read default none (some s) (read (.text s))
  | standard : Chosen read default none none (.ok default)

theorem chosen_field {α : Type} (read : RawSetting → Except Issue α) (default : α)
    (override : Option RawSetting) (given : Option String) :
    Chosen read default override given (field read default (override <|> given.map .text)) := by
  cases override with
  | some v => exact .overridden v given
  | none =>
    cases given with
    | some s => exact .fromEnvironment s
    | none => exact .standard

theorem mem_complaints {α : Type} {name : String} {outcome : Except Issue α} {c : Complaint} :
    c ∈ complaints name outcome ↔ c.field = name ∧ outcome = .error c.issue := by
  cases outcome with
  | ok a => simp [complaints]
  | error e =>
    rw [complaints, List.mem_singleton, Except.error.injEq]
    constructor
    · rintro rfl
      exact ⟨rfl, rfl⟩
    · rintro ⟨rfl, rfl⟩
      rfl

theorem map_field_complaints_sublist {α : Type} (name : String) (outcome : Except Issue α) :
    ((complaints name outcome).map Complaint.field).Sublist [name] := by
  cases outcome with
  | ok a => exact List.nil_sublist _
  | error e => exact List.Sublist.refl _

/-! ## Both settings -/

variable {raw : RawSettings}

theorem validate_eq_ok_iff {s : Settings} :
    validate raw = .ok s ↔
      precisionField raw = .ok s.precision ∧ strictField raw = .ok s.strict := by
  obtain ⟨p, b⟩ := s
  rw [validate]
  split
  · rename_i hp hb
    simp [hp, hb]
  · rename_i hne
    constructor
    · intro h
      cases h
    · intro h
      exact absurd h.2 (hne _ _ h.1)

theorem validate_eq_error {cs : List Complaint} (h : validate raw = .error cs) :
    cs = complaints "precision" (precisionField raw) ++
      complaints "strict_resolution" (strictField raw) := by
  rw [validate] at h
  split at h
  · cases h
  · cases h
    rfl

/-- The complaints name each field that is not valid, in order, and nothing else. -/
theorem validate_complaints {cs : List Complaint} (h : validate raw = .error cs) :
    (cs.map Complaint.field).Sublist ["precision", "strict_resolution"] ∧
      ∀ e, (⟨"precision", e⟩ ∈ cs ↔ precisionField raw = .error e) ∧
        (⟨"strict_resolution", e⟩ ∈ cs ↔ strictField raw = .error e) := by
  rw [validate_eq_error h]
  constructor
  · rw [List.map_append]
    exact (map_field_complaints_sublist _ _).append (map_field_complaints_sublist _ _)
  · intro e
    rw [List.mem_append, List.mem_append, mem_complaints, mem_complaints, mem_complaints,
      mem_complaints]
    simp

end Settings

/-! ## The variables that matter -/

/-- The variable stands for a field that is not overridden. -/
def RawSettings.Consults (overrides : RawSettings) (name : String) : Prop :=
  (name = "MPCALC_PRECISION" ∧ overrides.precision = none) ∨
    (name = "MPCALC_STRICT_RESOLUTION" ∧ overrides.strict = none)

namespace Settings

theorem load_congr {environ environ' : String → Option String} {overrides : RawSettings}
    (h : ∀ name, overrides.Consults name → environ' name = environ name) :
    load environ' overrides = load environ overrides := by
  have hprecision : overrides.precision = none →
      environ' "MPCALC_PRECISION" = environ "MPCALC_PRECISION" := fun hnone =>
    h _ (.inl ⟨rfl, hnone⟩)
  have hstrict : overrides.strict = none →
      environ' "MPCALC_STRICT_RESOLUTION" = environ "MPCALC_STRICT_RESOLUTION" := fun hnone =>
    h _ (.inr ⟨rfl, hnone⟩)
  obtain ⟨precision, strict⟩ := overrides
  have : merged environ' ⟨precision, strict⟩ = merged environ ⟨precision, strict⟩ := by
    unfold merged
    congr 1
    · cases precision with
      | none => rw [hprecision rfl]
      | some v => rfl
    · cases strict with
      | none => rw [hstrict rfl]
      | some v => rfl
  rw [load, this, load]

/-- Each setting is chosen by itself; settings come out when both are valid, and otherwise the
complaints name those that are not. Variables of overridden fields, and other variables, do not
matter. A truth value is the flag that it is, the text of a flag is judged as its trimmed text in
lower case, by the words for on and off, and a positive integer is the precision of so many
digits. -/
theorem settings_merged (environ : String → Option String) (overrides : RawSettings) :
    (∃ p b,
      Chosen RawSetting.toPrecision .default overrides.precision (environ "MPCALC_PRECISION") p ∧
      Chosen RawSetting.toFlag false overrides.strict (environ "MPCALC_STRICT_RESOLUTION") b ∧
      (∀ s : Settings, load environ overrides = .ok s ↔ p = .ok s.precision ∧ b = .ok s.strict) ∧
      ∀ cs, load environ overrides = .error cs →
        (cs.map Complaint.field).Sublist ["precision", "strict_resolution"] ∧
        ∀ e, (⟨"precision", e⟩ ∈ cs ↔ p = .error e) ∧
          (⟨"strict_resolution", e⟩ ∈ cs ↔ b = .error e)) ∧
    (∀ s, load environ overrides = .ok s → 1 ≤ s.precision.digits) ∧
    (∀ environ', (∀ name, overrides.Consults name → environ' name = environ name) →
      load environ' overrides = load environ overrides) ∧
    (∀ s, LowerCase (trimBlanks s.toList) (RawSetting.flagWord s).toList) ∧
    (∀ s t : String, LowerCase (trimBlanks s.toList) t.toList → ∀ b,
      (RawSetting.text t).toFlag = .ok b ↔ (RawSetting.text s).toFlag = .ok b) ∧
    (∀ b, (RawSetting.boolean b).toFlag = .ok b) ∧
    (∀ s b, (RawSetting.text s).toFlag = .ok b ↔
      RawSetting.flagWord s ∈ if b then RawSetting.onWords else RawSetting.offWords) ∧
    ∀ (n : Int) (P : Precision), (RawSetting.integer n).toPrecision = .ok P ↔
      (P.digits : Int) = n := by
  refine ⟨⟨_, _, chosen_field _ _ _ _, chosen_field _ _ _ _, fun s => validate_eq_ok_iff,
    fun cs => validate_complaints⟩, ?_, ?_, RawSetting.lowerCase_flagWord, ?_, fun b => rfl,
    RawSetting.toFlag_text_eq_ok_iff, fun n P => RawSetting.toPrecision_integer_eq_ok_iff⟩
  · intro s _
    exact s.precision.positive
  · intro environ' h
    exact load_congr h
  · intro s t h b
    exact RawSetting.toFlag_lowerCase h b

/-- A precision that is overridden hides its variable, here no number; with no override it is
reported. -/
theorem settings_merged_yes :
    load (fun _ => some "\tYES ") ⟨some (.integer 12), none⟩ = .ok ⟨⟨12, by decide⟩, true⟩ ∧
      1 ≤ 12 ∧
      load (fun name => if name = "MPCALC_PRECISION" then none else some "\tYES ")
          ⟨some (.integer 12), none⟩ =
        load (fun _ => some "\tYES ") ⟨some (.integer 12), none⟩ ∧
      (∀ b, (RawSetting.text "yes").toFlag = .ok b ↔ (RawSetting.text "\tYES ").toFlag = .ok b) ∧
      load (fun _ => some "\tYES ") ⟨none, none⟩ = .error [⟨"precision", .integerText⟩] ∧
      ["precision"].Sublist ["precision", "strict_resolution"] := by
  have hmasked : load (fun _ => some "\tYES ") ⟨some (.integer 12), none⟩ =
      .ok ⟨⟨12, by decide⟩, true⟩ := by decide +kernel
  have hreported : load (fun _ => some "\tYES ") ⟨none, none⟩ =
      .error [⟨"precision", .integerText⟩] := by decide +kernel
  have hlower : LowerCase (trimBlanks "\tYES ".toList) "yes".toList :=
    RawSetting.lowerCase_flagWord "\tYES "
  obtain ⟨-, hpositive, hmatter, -, hflag, -⟩ :=
    settings_merged (fun _ => some "\tYES ") ⟨some (.integer 12), none⟩
  obtain ⟨⟨p, b, -, -, -, herror⟩, -⟩ := settings_merged (fun _ => some "\tYES ") ⟨none, none⟩
  refine ⟨hmasked, hpositive _ hmasked, hmatter _ ?_, hflag _ _ hlower, hreported,
    (herror _ hreported).1⟩
  rintro name (⟨_, h⟩ | ⟨rfl, -⟩)
  · cases h
  · rfl

end Settings

end TowerCalc
