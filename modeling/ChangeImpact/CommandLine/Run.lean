import ChangeImpact.CommandLine.Analysis
import ChangeImpact.CommandLine.Command
import ChangeImpact.CommandLine.Plans
import ChangeImpact.CommandLine.Preferences

/-!
# CommandLine.Run

A command line carried out on a console.

* `perform` — one command.
* `run`     — the whole command line: how it ended and the console afterwards.
-/

namespace ChangeImpact.CommandLine

/-- What comes from outside while a command runs; without an answer there is nobody to ask. -/
structure Surroundings where
  circumstances : Circumstances
  answer : Option Bool := none

def versionText : String := "SafeChange CLI v0.3.0"

def perform (s : Surroundings) : Command → Action Unit
  | .version => Action.echo versionText
  | .help => pure ()
  | .analyze root asJson minRisk => analyze root asJson minRisk
  | .file path asJson => file path asJson
  | .impact path changeType root asJson => impact path changeType root asJson
  | .validate path changeType content asJson => validate path changeType content asJson
  | .exportGraph root format output focus => exportGraph root format output focus
  | .createPlan path changeType description root asJson =>
    createPlan s.circumstances path changeType description root asJson
  | .showPlan id asJson => showPlan id asJson
  | .listPlans asJson => listPlans asJson
  | .executePlan id all yes => executePlan s.circumstances s.answer id all yes
  | .deletePlan id => deletePlan id
  | .rollbackPlan id => rollbackPlan s.circumstances id
  | .showSettings => showSettings
  | .setSetting key value => setSetting key value
  | .resetSettings => resetSettings

/-- The least level that is reported. -/
def reportedLevel (verbose : Bool) : LogLevel := if verbose then .info else .warning

def isReported (verbose : Bool) (e : LogEntry) : Bool :=
  (reportedLevel verbose).rank ≤ e.level.rank

def runRequest (s : Surroundings) (r : Request) (c : Console) : Ending × Console :=
  let (result, after) := (perform s r.command).run.run { c with events := [], log := [] }
  let ending :=
    match result with
    | .ok () => .exit 0
    | .error e => e
  (ending, { after with log := after.log.filter (isReported r.verbose) })

/-- The console holds what this command line showed and reported, and nothing from before. -/
def run (s : Surroundings) (words : List String) (c : Console) : Ending × Console :=
  match Request.parse? words with
  | none => (.usage, { c with events := [], log := [] })
  | some r => runRequest s r c

/-- The code that the program ends with. -/
def Ending.code : Ending → Nat
  | .exit code => code
  | .usage => 2
  | .rejected _ => 2
  | .failed _ => 1
  | .unanswered => 1

end ChangeImpact.CommandLine
