import ChangeImpact.CommandLine.Event
import ChangeImpact.Project
import ChangeImpact.Settings.Files

/-!
# CommandLine.Action

What commands are made of.

* `Ending`  — how a command ends before its last line.
* `Console` — the disk, and what has been shown and reported so far.
* `Action`  — a computation on a console that may end early; the console keeps what was done.
-/

namespace ChangeImpact.CommandLine

inductive Ending where
  | exit (code : Nat)
  /-- The command line is not well formed. -/
  | usage
  /-- An argument is well formed and not accepted. -/
  | rejected (message : String)
  | failed (cause : Failure)
  /-- A question found no answer. -/
  | unanswered
  deriving DecidableEq, Repr

structure Console where
  disk : Disk
  locations : Locations := {}
  /-- How many plan ids have been issued. -/
  issued : Nat := 0
  events : List Event := []
  log : Log := []

abbrev Action := ExceptT Ending (StateM Console)

namespace Action

def emit (e : Event) : Action Unit := modify fun c => { c with events := c.events ++ [e] }

def print (text : String) : Action Unit := emit (.print text)

def echo (text : String) : Action Unit := emit (.echo text)

def report (log : Log) : Action Unit := modify fun c => { c with log := c.log ++ log }

def setDisk (d : Disk) : Action Unit := modify fun c => { c with disk := d }

def exit {α : Type} (code : Nat) : Action α := throw (.exit code)

def reject {α : Type} (message : String) : Action α := throw (.rejected message)

/-- The result of a computation, whose failure ends the command. -/
def demand {α : Type} : Except Failure α → Action α
  | .ok a => pure a
  | .error e => throw (.failed e)

/-- `demand` after the log has been taken over. -/
def attempt {α : Type} (r : Except Failure α × Log) : Action α := do
  report r.2
  demand r.1

def disk : Action Disk := return (← get).disk

def loadSettings : Action ScanSettings := do
  let c ← get
  attempt (Settings.load c.locations c.disk none)

/-- A file named on the command line has to be there. -/
def demandFile (path : String) : Action Unit := do
  match (← disk).status path path with
  | .ok (_, .dir _) => throw .usage
  | .ok _ => pure ()
  | .error .nullInPath => throw (.failed .nullInPath)
  | .error _ => throw .usage

/-- The analysis of a directory, or of the configured one. -/
def analyze (root : Option String) : Action FileMap := do
  match root with
  | none => pure ()
  | some path =>
    let path := Path.tidy path
    unless ← demand ((← disk).isDirectory path) do
      reject ("'" ++ path ++ "' is not a directory.")
  let settings ← loadSettings
  attempt (Project.analyze settings (← disk) root)

end Action

/-- Shows the elements one by one. -/
def showEach {α : Type} (items : List α) (text : α → String) : Action Unit :=
  items.forM fun item => Action.print (text item)

def oneOf (subject : String) (words : List String) : String :=
  subject ++ " must be one of: " ++ String.intercalate ", " words

end ChangeImpact.CommandLine
