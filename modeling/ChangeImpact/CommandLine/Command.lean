import ChangeImpact.CommandLine.Arguments

/-!
# CommandLine.Command

The commands of the program and how they are written.

* `Command`       — a command with its arguments.
* `Request`       — a command, and whether progress is reported.
* `Request.parse?` — the request that a command line stands for, if it is well formed.
-/

namespace ChangeImpact.CommandLine

inductive Command where
  | version
  | help
  | analyze (root : Option String) (asJson : Bool) (minRisk : Option String)
  | file (path : String) (asJson : Bool)
  | impact (path changeType : String) (root : Option String) (asJson : Bool)
  | validate (path changeType : String) (content : Option String) (asJson : Bool)
  | exportGraph (root : Option String) (format : String) (output : Option String) (focus : String)
  | createPlan (path changeType description : String) (root : Option String) (asJson : Bool)
  | showPlan (id : String) (asJson : Bool)
  | listPlans (asJson : Bool)
  | executePlan (id : String) (all yes : Bool)
  | deletePlan (id : String)
  | rollbackPlan (id : String)
  | showSettings
  | setSetting (key value : String)
  | resetSettings
  deriving DecidableEq, Repr

structure Request where
  verbose : Bool
  command : Command
  deriving DecidableEq, Repr

def helpOption : OptionSpec := flag "help" ["--help"]

def jsonOption : OptionSpec := flag "json" ["--json"]

def rootOption : OptionSpec := valued "root" ["--root"]

def changeTypeOption : OptionSpec := valued "change-type" ["--change-type", "-t"]

/-- The options of a command and what its arguments make of them. -/
structure Form where
  options : List OptionSpec
  build : Given → List String → Option Command

def root? (arguments : List String) : Option (Option String) :=
  match arguments with
  | [] => some none
  | [root] => some (some root)
  | _ => none

def analyzeForm : Form where
  options := [jsonOption, valued "risk" ["--risk", "-r"]]
  build g arguments :=
    (root? arguments).map fun root => .analyze root (g.has "json") (g.value? "risk")

def fileForm : Form where
  options := [jsonOption]
  build g
    | [path] => some (.file path (g.has "json"))
    | _ => none

def impactForm : Form where
  options := [jsonOption, changeTypeOption, rootOption]
  build g
    | [path] => some
      (.impact path ((g.value? "change-type").getD "modify") (g.value? "root") (g.has "json"))
    | _ => none

def validateForm : Form where
  options := [jsonOption, changeTypeOption, valued "content-file" ["--content-file", "-c"]]
  build g
    | [path] => some
      (.validate path ((g.value? "change-type").getD "modify") (g.value? "content-file")
        (g.has "json"))
    | _ => none

def exportForm : Form where
  options := [valued "format" ["--format", "-f"], valued "output" ["--output", "-o"],
    valued "focus" ["--focus"]]
  build g arguments :=
    (root? arguments).map fun root =>
      .exportGraph root ((g.value? "format").getD "html") (g.value? "output")
        ((g.value? "focus").getD "")

def createForm : Form where
  options := [jsonOption, rootOption]
  build g
    | [path, changeType, description] => some
      (.createPlan path changeType description (g.value? "root") (g.has "json"))
    | _ => none

def showForm : Form where
  options := [jsonOption]
  build g
    | [id] => some (.showPlan id (g.has "json"))
    | _ => none

def listForm : Form where
  options := [jsonOption]
  build g
    | [] => some (.listPlans (g.has "json"))
    | _ => none

def executeForm : Form where
  options := [flag "all" ["--all", "-a"], flag "yes" ["--yes", "-y"]]
  build g
    | [id] => some (.executePlan id (g.has "all") (g.has "yes"))
    | _ => none

/-- A command without options on one plan. -/
def onPlan (make : String → Command) : Form where
  options := []
  build _
    | [id] => some (make id)
    | _ => none

/-- A command without options and arguments. -/
def alone (command : Command) : Form where
  options := []
  build _
    | [] => some command
    | _ => none

def setForm : Form where
  options := []
  build _
    | [key, value] => some (.setSetting key value)
    | _ => none

/-- A name leads to a command or to a group of commands. -/
inductive Entry where
  | command (s : Form)
  | group (commands : List (String × Form))

def planCommands : List (String × Form) := [
  ("create", createForm),
  ("show", showForm),
  ("list", listForm),
  ("execute", executeForm),
  ("delete", onPlan .deletePlan),
  ("rollback", onPlan .rollbackPlan)]

def settingsCommands : List (String × Form) := [
  ("show", alone .showSettings),
  ("set", setForm),
  ("reset", alone .resetSettings)]

def entries : List (String × Entry) := [
  ("analyze", .command analyzeForm),
  ("file", .command fileForm),
  ("impact", .command impactForm),
  ("validate", .command validateForm),
  ("export-graph", .command exportForm),
  ("plan", .group planCommands),
  ("config", .group settingsCommands)]

/-- Asking for help comes before everything that is wrong with the arguments. -/
def parseCommand? (s : Form) (words : List String) : Option Command :=
  match parse? (helpOption :: s.options) words with
  | none => none
  | some g => if g.has "help" then some .help else s.build g g.arguments

def parseGroup? (commands : List (String × Form)) (words : List String) : Option Command :=
  match parseLeading? [helpOption] words with
  | none => none
  | some (g, words) =>
    if g.has "help" then some .help
    else
      match words with
      | [] => none
      | name :: words => (commands.lookup name).bind fun s => parseCommand? s words

def programOptions : List OptionSpec :=
  [helpOption, flag "version" ["--version", "-V"], flag "verbose" ["--verbose", "-v"]]

namespace Request

/-- Of the version and help the one that is asked for first is given, whatever follows. -/
def parse? (words : List String) : Option Request :=
  match parseLeading? programOptions words with
  | none => none
  | some (g, words) =>
    let verbose := g.has "verbose"
    match g.firstOf? ["version", "help"], words with
    | some "version", _ => some { verbose, command := .version }
    | some _, _ => some { verbose, command := .help }
    | none, [] => none
    | none, name :: words =>
      match entries.lookup name with
      | none => none
      | some (.command s) => (parseCommand? s words).map fun command => { verbose, command }
      | some (.group commands) =>
        (parseGroup? commands words).map fun command => { verbose, command }

end Request

end ChangeImpact.CommandLine
