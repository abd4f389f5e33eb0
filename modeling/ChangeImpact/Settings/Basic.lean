import ChangeImpact.Document.Value
import ChangeImpact.Failure
import ChangeImpact.Path.Slash

/-!
# Settings.Basic

The settings of a scan, and the values that are accepted for them.

* `ScanSettings` — where the sources are and which files count.
* `SettingKey`   — the names of the settings.
* `Setting.read` — the setting that a value of a document or a text means.
-/

namespace ChangeImpact

structure ScanSettings where
  root : String := "src"
  extensions : List String := [".ts", ".js", ".svelte", ".vue", ".jsx", ".tsx"]
  ignore : List String := ["node_modules", ".git", "dist", "build", ".svelte-kit"]
  maxWorkers : Int := 8
  deriving DecidableEq, Repr

inductive SettingKey where
  | root
  | extensions
  | ignorePatterns
  | maxWorkers
  deriving DecidableEq, Repr

namespace SettingKey

def all : List SettingKey := [root, extensions, ignorePatterns, maxWorkers]

def word : SettingKey → String
  | root => "root"
  | extensions => "extensions"
  | ignorePatterns => "ignore_patterns"
  | maxWorkers => "max_workers"

def ofWord? (w : String) : Option SettingKey := all.find? fun k => k.word == w

end SettingKey

inductive Setting where
  | text (s : String)
  | texts (items : List String)
  | number (n : Int)
  deriving DecidableEq, Repr

namespace Setting

/-- The items of a text between commas, without blanks around them and without empty ones. -/
def listed (s : String) : List String :=
  (((Text.splitOn ',' s.toList).map Text.strip).filter fun item => !item.isEmpty).map .ofList

/-- The items of a list, a text with commas or the keys of a table. -/
def itemsOf : Value → Except Failure (List String)
  | .text s => .ok (listed s)
  | .list items => .ok (items.map Value.display)
  | .object fields => .ok (fields.map (·.1))
  | _ => .error .wrongKind

/-- An extension starts with a point. -/
def pointed (item : String) : String := if Text.startsWith "." item then item else "." ++ item

/-- The whole number that a value means; a fraction is cut off. -/
def integerOf : Value → Except Failure Int
  | .int n => .ok n
  | .bool b => .ok (if b then 1 else 0)
  | .text s =>
    match Text.integer? s with
    | some n => .ok n
    | none => .error (.notInteger s)
  | .float x =>
    match x.truncate? with
    | some n => .ok n
    | none => .error (if x = .nan then .nanInteger else .infiniteInteger)
  | _ => .error .wrongKind

def positive (n : Int) : Except Failure Setting :=
  if n < 1 then .error .tooFewWorkers else .ok (.number n)

/-- A name that is no setting takes the text of a value. -/
def read (key : Option SettingKey) (v : Value) : Except Failure Setting :=
  match key with
  | some .extensions => (itemsOf v).map fun items => .texts (items.map pointed)
  | some .ignorePatterns => (itemsOf v).map .texts
  | some .maxWorkers =>
    match integerOf v with
    | .ok n => positive n
    | .error e => .error e
  | some .root => .ok (.text v.display)
  | none => .ok (.text v.display)

def toValue : Setting → Value
  | text s => .text s
  | texts items => Value.texts items
  | number n => .int n

end Setting

namespace ScanSettings

/-- A setting of another kind than its key asks for changes nothing. -/
def set (s : ScanSettings) : SettingKey → Setting → ScanSettings
  | .root, .text t => { s with root := t }
  | .extensions, .texts items => { s with extensions := items }
  | .ignorePatterns, .texts items => { s with ignore := items }
  | .maxWorkers, .number n => { s with maxWorkers := n }
  | _, _ => s

def get (s : ScanSettings) : SettingKey → Setting
  | .root => .text s.root
  | .extensions => .texts s.extensions
  | .ignorePatterns => .texts s.ignore
  | .maxWorkers => .number s.maxWorkers

end ScanSettings

end ChangeImpact
