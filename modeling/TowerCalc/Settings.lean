import TowerCalc.Machine.FloatFormat
import TowerCalc.Number
import TowerCalc.Text.Quoted

/-!
# Settings

A calculator has a precision and is strict or not. Each of the two may be given
as an override, else by an environment variable, else it has a default. What is
given may be a number, a truth value or a text; whatever does not fit is
reported, the precision first.

## Results

* `Settings.validate`: the settings of raw values, or every complaint.
* `Settings.load`: settings from overrides and an environment.
-/
namespace TowerCalc

/-- A value that is given for a setting. -/
inductive RawSetting where
  | absent
  | boolean (b : Bool)
  | integer (n : Int)
  | double (x : MachineFloat)
  | text (s : String)
  | other
  deriving DecidableEq

/-- What is wrong with a value. -/
inductive Issue where
  /-- A text that is no integer. -/
  | integerText
  /-- A number that is no integer. -/
  | integerFraction
  /-- A value of a type that holds no integers. -/
  | integerType
  | notPositive
  /-- An integer other than zero and one. -/
  | flagInteger
  /-- A value of a type that holds no flags. -/
  | flagType
  /-- A text that is no flag. -/
  | flagText (s : String)
  /-- Settings do not change. -/
  | frozen
  deriving DecidableEq

namespace Issue

/-- The word for the issue. -/
def word : Issue → String
  | integerText => "int_parsing"
  | integerFraction => "int_from_float"
  | integerType => "int_type"
  | notPositive => "greater_than"
  | flagInteger => "bool_parsing"
  | flagType => "bool_type"
  | flagText _ => "value_error"
  | frozen => "frozen_instance"

/-- The text that explains the issue, where there is one. -/
def explanation? : Issue → Option String
  | flagText s => some ("expected a boolean flag, got " ++ quoted s)
  | _ => none

end Issue

/-- An issue with a field. -/
structure Complaint where
  field : String
  issue : Issue
  deriving DecidableEq

namespace RawSetting

/-- An integer: an optional sign, digits with single underscores between them, and
optionally a point with zeros behind it. -/
def readIntegral? (s : String) : Option Int := do
  let cs := trimBlanks s.toList
  guard ((cs.dropWhile (· ≠ '.')).drop 1 |>.all (· = '0'))
  readSigned? (← withoutUnderscores (cs.takeWhile (· ≠ '.')))

def toInteger : RawSetting → Except Issue Int
  | boolean b => .ok (if b then 1 else 0)
  | integer n => .ok n
  | double x => match Number.integral? x.value with
    | some n => .ok n
    | none => .error .integerFraction
  | text s => match readIntegral? s with
    | some n => .ok n
    | none => .error .integerText
  | absent | other => .error .integerType

/-- A precision is a positive integer (`precision` of `CalculatorSettings`). -/
def toPrecision (v : RawSetting) : Except Issue Precision :=
  match v.toInteger with
  | .error e => .error e
  | .ok n => match Precision.ofInt? n with
    | some P => .ok P
    | none => .error .notPositive

/-- A flag in lower case, without the blanks around it. -/
def flagWord (s : String) : String := String.ofList ((trimBlanks s.toList).map Char.toLower)

/-- The words for a flag that is set (`_TRUE`). -/
def onWords : List String := ["1", "true", "yes", "on"]

/-- The words for a flag that is not set (`_FALSE`). -/
def offWords : List String := ["0", "false", "no", "off", ""]

/-- A flag: a text is one of the words (`_parse_flag`), and zero and one are flags, too. -/
def toFlag : RawSetting → Except Issue Bool
  | boolean b => .ok b
  | integer n => if n = 0 ∨ n = 1 then .ok (n = 1) else .error .flagInteger
  | double x =>
    if x.value = .zero ∨ x.value = .one then .ok (x.value = .one) else .error .flagType
  | text s =>
    if flagWord s ∈ onWords then .ok true
    else if flagWord s ∈ offWords then .ok false
    else .error (.flagText s)
  | absent | other => .error .flagType

end RawSetting

/-- What is given for each setting, if anything. -/
structure RawSettings where
  precision : Option RawSetting
  strict : Option RawSetting

/-- What a calculator is told (`CalculatorSettings`). -/
structure Settings where
  precision : Precision
  strict : Bool
  deriving DecidableEq

namespace Settings

/-- The outcome for one setting: its value, or the default when nothing is given. -/
def field {α : Type} (read : RawSetting → Except Issue α) (default : α) :
    Option RawSetting → Except Issue α
  | some v => read v
  | none => .ok default

/-- The complaint about one setting. -/
def complaints {α : Type} (name : String) : Except Issue α → List Complaint
  | .ok _ => []
  | .error e => [⟨name, e⟩]

def precisionField (raw : RawSettings) : Except Issue Precision :=
  field RawSetting.toPrecision .default raw.precision

def strictField (raw : RawSettings) : Except Issue Bool :=
  field RawSetting.toFlag false raw.strict

/-- Both settings, or the complaints about each; the construction of `CalculatorSettings`. -/
def validate (raw : RawSettings) : Except (List Complaint) Settings :=
  match precisionField raw, strictField raw with
  | .ok p, .ok s => .ok ⟨p, s⟩
  | p, s => .error (complaints "precision" p ++ complaints "strict_resolution" s)

/-- Environment variables stand in for what is not overridden (first half of
`load_settings`). -/
def merged (environ : String → Option String) (overrides : RawSettings) : RawSettings where
  precision := overrides.precision <|> (environ "MPCALC_PRECISION").map .text
  strict := overrides.strict <|> (environ "MPCALC_STRICT_RESOLUTION").map .text

/-- Settings from an environment and overrides (`load_settings`). -/
def load (environ : String → Option String) (overrides : RawSettings) :
    Except (List Complaint) Settings :=
  validate (merged environ overrides)

/-- Nothing can be assigned to a field of settings. -/
def assign (name : String) : Complaint := ⟨name, .frozen⟩

end Settings

end TowerCalc
