import ChangeImpact.Disk.Files
import ChangeImpact.Document.TomlReader
import ChangeImpact.Document.TomlText
import ChangeImpact.Settings.Basic

/-!
# Settings.Files

The files that settings are kept in: one of the user, one of the project. What the project says
wins over what the user says, and both over the defaults.

* `Settings.readTableWith` — the table of a file, empty when there is none or it cannot be read.
* `Settings.merge`         — the settings of one table taken onto others.
* `Settings.loadWith`      — the settings in force.
* `Settings.set`, `Settings.reset` — changes to the file of the user.

`Settings.readTable` and `Settings.load` are these for files in TOML.
-/

namespace ChangeImpact

/-- Where the program keeps its own files. -/
structure Locations where
  home : String := "home"

namespace Locations

def config (l : Locations) : String := Path.child l.home "config.toml"

def plans (l : Locations) : String := Path.child l.home "plans"

end Locations

namespace Settings

def projectFile : String := "safechange.toml"

def warning (text : String) (cause : Failure) : LogEntry :=
  { level := .warning, source := "config_manager", text, cause := some cause }

/-- What turns the text of a file into a table. -/
abbrev TableReader := String → Except Failure Toml.Table

/-- A file that cannot be read as a table counts as an empty one and is reported. -/
def readTableWith (parse : TableReader) (d : Disk) (path shown : String) :
    Except Failure Toml.Table × Log :=
  let ignored (cause : Failure) : Log :=
    [warning ("Ignoring unreadable config " ++ shown ++ ": ") cause]
  match d.isPresent path with
  | .error (.disk f _) => (.error (.disk f shown), [])
  | .error e => (.error e, [])
  | .ok false => (.ok [], [])
  | .ok true =>
    match d.readText path shown with
    | .error (.disk f p) => (.ok [], ignored (.disk f p))
    | .error e => (.error e, [])
    | .ok text =>
      match parse text with
      | .ok table => (.ok table, [])
      | .error .badToml => (.ok [], ignored .badToml)
      | .error e => (.error e, [])

def readTable (d : Disk) (path shown : String) : Except Failure Toml.Table × Log :=
  readTableWith Toml.parse d path shown

def userTable (l : Locations) (d : Disk) : Except Failure Toml.Table × Log :=
  readTable d l.config l.config

/-- What the section of a table offers for a key: nothing, a value, or a key in something that
has no values under keys. -/
inductive Offer where
  | absent
  | value (v : Value)
  | keyless

def offerOf (key : String) : Value → Except Failure Offer
  | .object fields =>
    .ok (match Value.field? key fields with
      | some v => .value v
      | none => .absent)
  | .text s => .ok (if Text.occursIn key s then .keyless else .absent)
  | .list items =>
    .ok (if items.any (fun v => match v with | .text s => s == key | _ => false) then .keyless
      else .absent)
  | _ => .error .wrongKind

/-- Failures of a value that leave the setting as it is. -/
def isRefusal : Failure → Bool
  | .infiniteInteger => false
  | _ => true

def mergeKey (entry : Value) (s : ScanSettings) (key : SettingKey) :
    Except Failure ScanSettings × Log :=
  let refused (cause : Failure) : Log :=
    [warning ("Invalid value for scan." ++ key.word ++ ": ") cause]
  match offerOf key.word entry with
  | .error e => (.error e, [])
  | .ok .absent => (.ok s, [])
  | .ok .keyless => (.ok s, refused .wrongKind)
  | .ok (.value v) =>
    match Setting.read (some key) v with
    | .ok setting => (.ok (s.set key setting), [])
    | .error e => if isRefusal e then (.ok s, refused e) else (.error e, [])

def mergeKeys (entry : Value) :
    List SettingKey → ScanSettings → Except Failure ScanSettings × Log
  | [], s => (.ok s, [])
  | key :: rest, s =>
    match mergeKey entry s key with
    | (.error e, log) => (.error e, log)
    | (.ok s, log) =>
      let (result, more) := mergeKeys entry rest s
      (result, log ++ more)

/-- The settings of a section taken onto `s`, key by key. -/
def merge (entry : Value) (s : ScanSettings) : Except Failure ScanSettings × Log :=
  mergeKeys entry SettingKey.all s

def scanSection (table : Toml.Table) : Value :=
  (Value.field? "scan" table).getD (.object [])

/-- The path of the project's file and the one under which it is shown. -/
def projectPath (d : Disk) : Option String → String × String
  | none => (projectFile, d.hereShown ++ "/" ++ projectFile)
  | some dir =>
    let path := Path.child (Path.tidy dir) projectFile
    (path, path)

def loadWith (parse : TableReader) (l : Locations) (d : Disk) (projectDir : Option String) :
    Except Failure ScanSettings × Log :=
  match readTableWith parse d l.config l.config with
  | (.error e, log) => (.error e, log)
  | (.ok user, userLog) =>
    let (path, shown) := projectPath d projectDir
    match readTableWith parse d path shown with
    | (.error e, log) => (.error e, userLog ++ log)
    | (.ok project, projectLog) =>
      match merge (scanSection user) {} with
      | (.error e, log) => (.error e, userLog ++ projectLog ++ log)
      | (.ok s, log) =>
        let (result, more) := merge (scanSection project) s
        (result, userLog ++ projectLog ++ log ++ more)

def load (l : Locations) (d : Disk) (projectDir : Option String) :
    Except Failure ScanSettings × Log :=
  loadWith Toml.parse l d projectDir

/-- Writes the table of the user; the result tells whether it could be written. The file is
emptied before its text is made, so a table that has no written form leaves it empty. -/
def save (l : Locations) (d : Disk) (table : Toml.Table) : Except Failure Bool × Disk × Log :=
  match d.makeDirectories l.home with
  | .error e => (.error e, d, [])
  | .ok d =>
    let text := Toml.render? table
    match d.writeText l.config (text.getD "") with
    | .ok d => (if text.isSome then .ok true else .error .noWrittenForm, d, [])
    | .error (.disk f p) =>
      (.ok false, d,
        [{ level := .error, source := "config_manager"
           text := "Could not write " ++ l.config ++ ": ", cause := some (.disk f p) }])
    | .error e => (.error e, d, [])

/-- Puts a setting into a section, which has to be a table. -/
def putSetting (table : Toml.Table) (key : SettingKey) (setting : Setting) :
    Except Failure Toml.Table :=
  match scanSection table with
  | .object fields =>
    .ok (Value.setField "scan" (.object (Value.setField key.word setting.toValue fields)) table)
  | _ => .error .wrongKind

/-- Keeps a setting, given as text, in the file of the user. -/
def set (l : Locations) (d : Disk) (key value : String) : Except Failure Bool × Disk × Log :=
  match SettingKey.ofWord? key with
  | none => (.error (.missingKey key), d, [])
  | some k =>
    match userTable l d with
    | (.error e, log) => (.error e, d, log)
    | (.ok table, log) =>
      match Setting.read (some k) (.text value) with
      | .error e => (.error e, d, log)
      | .ok setting =>
        match putSetting table k setting with
        | .error e => (.error e, d, log)
        | .ok table =>
          let (result, d, more) := save l d table
          (result, d, log ++ more)

/-- Drops the section with the settings of a scan. -/
def reset (l : Locations) (d : Disk) : Except Failure Bool × Disk × Log :=
  match userTable l d with
  | (.error e, log) => (.error e, d, log)
  | (.ok table, log) =>
    match Value.field? "scan" table with
    | none => (.ok true, d, log)
    | some _ =>
      let (result, d, more) := save l d (Value.dropField "scan" table)
      (result, d, log ++ more)

end Settings

end ChangeImpact
