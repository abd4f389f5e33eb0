import ChangeImpact.Record.Basic
import ChangeImpact.Text.Search

/-!
# Risk

How risky it is to change a file.

* `Risk.score`     — dependencies, twice the dependents, exports, and flat amounts for shared
  utilities and for handlers of an interface.
* `Risk.classify`  — the level of a score.
* `Risk.scoreAll`  — levels and direct impacts of all files of a built graph.
* `Risk.summarize` — counts over a project.
-/

namespace ChangeImpact

namespace RiskLevel

/-- The place of a level in the order of risk. -/
def ordinal : RiskLevel → Nat
  | low => 0
  | medium => 1
  | high => 2
  | critical => 3

end RiskLevel

namespace Risk

def isUtility (path : String) : Bool :=
  Text.occursIn "/utils/" path || Text.occursIn "/lib/" path

def isInterface (path : String) : Bool := Text.occursIn "/api/" path

def score (r : FileRecord) : Nat :=
  r.dependencies.length + r.dependents.length * 2 + r.exports.length
    + (if isUtility r.path then 5 else 0) + (if isInterface r.path then 3 else 0)

def classify (score : Int) : RiskLevel :=
  if 20 ≤ score then .critical
  else if 15 ≤ score then .high
  else if 10 ≤ score then .medium
  else .low

def levelOf (r : FileRecord) : RiskLevel := classify (score r)

/-- The impacts of a change on the direct dependents of a file. -/
def directImpacts (r : FileRecord) : List Impact :=
  let severity : RiskLevel := if r.risk = .known .critical then .high else .medium
  r.dependents.map fun d =>
    { file := d, type := .known .undecided, description := "Affected through a direct dependency",
      severity := .known severity }

def scored (r : FileRecord) : FileRecord :=
  let r := { r with risk := .known (levelOf r) }
  { r with impacts := directImpacts r }

def scoreAll (files : FileMap) : FileMap := files.mapValues fun _ r => scored r

structure Summary where
  totalFiles : Nat
  highRiskFiles : Nat
  criticalFiles : Nat
  edges : Nat
  deriving DecidableEq, Repr

def summarize (files : FileMap) : Summary :=
  let risks := files.values.map (·.risk)
  { totalFiles := files.size
    highRiskFiles := risks.countP fun r => r = .known .high || r = .known .critical
    criticalFiles := risks.count (.known .critical)
    edges := files.total (·.dependencies.length) }

end Risk

end ChangeImpact
