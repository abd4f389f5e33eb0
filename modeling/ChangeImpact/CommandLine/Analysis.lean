import ChangeImpact.CommandLine.Action
import ChangeImpact.Export.Dot
import ChangeImpact.Export.Html
import ChangeImpact.Export.Report
import ChangeImpact.Validation.Check

/-!
# CommandLine.Analysis

The commands that look at a project and change nothing but the file that a graph is exported to.

* `analyze`     — every file with its risk; `riskRows` is the table that it shows.
* `file`        — the imports and exports of one file.
* `impact`      — the files that a change of one file affects.
* `validate`    — the verdict on the content of a file.
* `exportGraph` — the dependency graph as a file.
-/

namespace ChangeImpact.CommandLine

open ChangeImpact.CommandLine.Action

def riskStyle : Label RiskLevel → Except Failure String
  | .known .low => .ok "green"
  | .known .medium => .ok "yellow"
  | .known .high => .ok "red"
  | .known .critical => .ok "bold red"
  | .other word => .error (.missingKey word)

def riskLabel (level : Label RiskLevel) : Except Failure String :=
  (riskStyle level).map fun style => styled style level.text

/-- Higher scores come first, and among equal ones paths in ascending order. -/
def comesBefore (r s : FileRecord) : Bool :=
  Risk.score s < Risk.score r || (Risk.score r = Risk.score s && decide (r.path ≤ s.path))

def isAtLeast (threshold : Option RiskLevel) (r : FileRecord) : Bool :=
  match threshold, r.risk with
  | none, _ => true
  | some t, .known level => t.ordinal ≤ level.ordinal
  | some _, .other _ => false

/-- The records at or above a level of risk in the order in which they are shown. -/
def riskRows (files : FileMap) (threshold : Option RiskLevel) : List FileRecord :=
  (files.values.mergeSort comesBefore).filter (isAtLeast threshold)

def riskCells (r : FileRecord) : Except Failure (List String) :=
  (riskLabel r.risk).map fun label =>
    [r.path, Text.count r.fanIn, Text.count r.fanOut, Text.count r.exports.length,
      Text.count (Risk.score r), label]

def summaryText (s : Risk.Summary) : String :=
  "Files: " ++ Text.count s.totalFiles ++ "  |  Edges: " ++ Text.count s.edges
    ++ "  |  High risk: " ++ Text.count s.highRiskFiles
    ++ "  |  Critical: " ++ Text.count s.criticalFiles

/-- The level named as the least one to be shown. -/
def readThreshold : Option String → Action (Option RiskLevel)
  | none => pure none
  | some word =>
    match Vocabulary.ofWord? word with
    | some level => pure (some level)
    | none => reject (oneOf "Risk" (Vocabulary.words RiskLevel))

def analyze (root : Option String) (asJson : Bool) (minRisk : Option String) : Action Unit := do
  let threshold ← readThreshold minRisk
  let files ← Action.analyze root
  if asJson then echo (Export.report files)
  else if files.size = 0 then print "[yellow]No source files found.[/yellow]"
  else
    let rows ← demand (collect riskCells (riskRows files threshold))
    emit (.table "Dependency Analysis"
      ["File", "Fan-in", "Fan-out", "Exports", "Score", "Risk"] rows)
    emit (.panel "Summary" (summaryText (Risk.summarize files)) "blue")

def importCells (e : ImportEdge) : List String :=
  [Text.integer e.line, e.specifier, e.kind.text, String.intercalate ", " e.symbols]

def exportCells (s : ExportSymbol) : List String :=
  [Text.integer s.line, s.name, s.kind.text, if s.isDefault then "yes" else ""]

def file (path : String) (asJson : Bool) : Action Unit := do
  demandFile path
  discard loadSettings
  match ← attempt (Project.analyzeFile (← disk) path) with
  | none =>
    print (styled "red" ("❌ Could not read " ++ Path.tidy path))
    exit 1
  | some record =>
    if asJson then echo (Json.pretty record.toValue)
    else
      print (styled "bold" record.path)
      emit (.table "Imports" ["Line", "Specifier", "Kind", "Symbols"]
        (record.imports.map importCells))
      emit (.table "Exports" ["Line", "Name", "Kind", "Default"] (record.exports.map exportCells))

def impactValue (target : String) (record : FileRecord) (impacts : List Impact) : Value :=
  .object [
    ("file", .text target),
    ("risk_level", .text record.risk.text),
    ("impacts", .list (impacts.map Impact.toValue)),
    ("affected_files", Value.texts (affectedFiles impacts))]

def impactCells (i : Impact) : Except Failure (List String) :=
  (riskLabel i.severity).map fun label => [i.file, i.type.text, label, i.description]

/-- The last word of a style is its colour. -/
def colourOf (style : String) : String :=
  .ofList (style.toList.reverse.takeWhile (· != ' ')).reverse

def showImpacts (target : String) (kind : ChangeKind) (record : FileRecord)
    (impacts : List Impact) : Action Unit := do
  let style ← demand (riskStyle record.risk)
  let body := "Risk: " ++ styled style record.risk.text ++ "  (score "
    ++ Text.count (Risk.score record) ++ ")\nDependents: " ++ Text.count record.fanIn
    ++ "  |  Dependencies: " ++ Text.count record.fanOut
  emit (.panel target body (colourOf style))
  if impacts.isEmpty then print "[green]No dependent files found.[/green]"
  else
    let rows ← demand (collect impactCells impacts)
    emit (.table ("Impact of " ++ Vocabulary.word kind)
      ["Affected file", "Type", "Severity", "Description"] rows)
    print (Text.count (affectedFiles impacts).length ++ " unique file(s) affected.")

def impact (path changeType : String) (root : Option String) (asJson : Bool) : Action Unit := do
  match Vocabulary.ofWord? changeType with
  | none => reject (oneOf "Change type" (Vocabulary.words ChangeKind))
  | some kind =>
    let target := Path.tidy path
    let files ← Action.analyze root
    match files.get? target with
    | none =>
      print (styled "red" ("❌ '" ++ target ++ "' is not part of the analyzed source tree."))
      exit 1
    | some record =>
      let impacts := Impact.predict files target kind
      if asJson then echo (Json.pretty (impactValue target record impacts))
      else showImpacts target kind record impacts

/-- The content of a file, empty when there is no file. -/
def contentOf (path : String) : Action String := do
  let d ← disk
  if ← demand (d.isRegular path) then demand (d.readLossy path path) else pure ""

def showVerdict (path : String) (v : Verdict) : Action Unit := do
  showEach v.errors fun e => styled "red" ("✗ " ++ e)
  showEach v.warnings fun w => styled "yellow" ("⚠ " ++ w)
  showEach v.recommendations fun r => styled "dim" ("• " ++ r)
  let rules := Validation.checklist path
  unless rules.isEmpty do
    print "\n[bold]Checklist[/bold]"
    showEach rules fun rule => "  [ ] " ++ rule
  print v.text

def validate (path changeType : String) (content : Option String) (asJson : Bool) :
    Action Unit := do
  content.forM demandFile
  unless (Vocabulary.words ChangeType).contains changeType do
    reject (oneOf "Change type" (Vocabulary.words ChangeType))
  let text ← contentOf (Path.tidy (content.getD path))
  let target := Path.tidy path
  let v := Validation.check target changeType (some text)
  if asJson then echo (Json.pretty v.toValue) else showVerdict target v
  unless v.isValid do exit 1

inductive GraphFormat where
  | html
  | dot
  | json
  deriving DecidableEq, Repr

instance : Vocabulary GraphFormat where
  all := [.html, .dot, .json]
  word
    | .html => "html"
    | .dot => "dot"
    | .json => "json"

def exported (files : FileMap) (focus : String) : GraphFormat → Except Failure String
  | .html => Export.html files focus
  | .dot => Export.dot files focus
  | .json => .ok (Export.report files)

/-- Where a graph goes, and how that place is shown. -/
def outputPath (d : Disk) (format : GraphFormat) : Option String → String × String
  | some path => (Path.tidy path, Path.tidy path)
  | none =>
    let name := "dependency_graph." ++ Vocabulary.word format
    (name, Path.child d.hereShown name)

def exportGraph (root : Option String) (format : String) (output : Option String)
    (focus : String) : Action Unit := do
  match Vocabulary.ofWord? format.toLower with
  | none => reject (oneOf "Format" (Vocabulary.words GraphFormat))
  | some format =>
    let files ← Action.analyze root
    let text ← demand (exported files focus format)
    let d ← disk
    let (path, shown) := outputPath d format output
    match d.writeText path text with
    | .ok d => setDisk d
    | .error (.disk f _) => throw (.failed (.disk f shown))
    | .error e => throw (.failed e)
    echo ("Exported graph to " ++ shown)

end ChangeImpact.CommandLine
