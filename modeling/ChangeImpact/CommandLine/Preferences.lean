import ChangeImpact.CommandLine.Action

/-!
# CommandLine.Preferences

The commands on the settings of a scan.

* `showSettings`  — the settings in force.
* `setSetting`    — keeps a setting in the file of the user.
* `resetSettings` — goes back to the defaults.
-/

namespace ChangeImpact.CommandLine

open ChangeImpact.CommandLine.Action

def settingText : Setting → String
  | .text s => s
  | .texts items => String.intercalate ", " items
  | .number n => Text.integer n

def showSettings : Action Unit := do
  let settings ← loadSettings
  emit (.table "Scan configuration" ["Key", "Value"]
    (SettingKey.all.map fun key => [key.word, settingText (settings.get key)]))
  print (styled "dim" ("User config: " ++ (← get).locations.config))

/-- Takes over what a change to the settings left behind. -/
def written (r : Except Failure Bool × Disk × Log) : Action (Except Failure Bool) := do
  report r.2.2
  setDisk r.2.1
  return r.1

/-- Failures that are due to the value given. -/
def isInvalidValue : Failure → Bool
  | .notInteger _ => true
  | .tooFewWorkers => true
  | .nullInPath => true
  | .badEncoding _ => true
  | _ => false

/-- The last line of a command that changes the settings. -/
def confirmSaved (saved : Bool) (text : String) : Action Unit := do
  if saved then print (styled "green" ("✅ " ++ text))
  else
    print (styled "red" ("❌ Could not write " ++ (← get).locations.config))
    exit 1

def setSetting (key value : String) : Action Unit := do
  let c ← get
  match ← written (Settings.set c.locations c.disk key value) with
  | .ok saved => confirmSaved saved ("scan." ++ key ++ " updated")
  | .error (.missingKey _) =>
    reject ("Unknown key '" ++ key ++ "'. Use one of: "
      ++ String.intercalate ", " (SettingKey.all.map SettingKey.word))
  | .error e => if isInvalidValue e then reject e.message else throw (.failed e)

def resetSettings : Action Unit := do
  let c ← get
  let saved ← demand (← written (Settings.reset c.locations c.disk))
  confirmSaved saved "Scan configuration reset to defaults"

end ChangeImpact.CommandLine
