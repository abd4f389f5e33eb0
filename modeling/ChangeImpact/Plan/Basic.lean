import ChangeImpact.Impact

/-!
# Plan.Basic

Plans for changes that are applied step by step and can be undone.

* `PlanStep`, `PlanStep.next?` — the six steps and their order.
* `PlanStatus`                 — where a plan stands.
* `Plan`                       — the change, its analysis, its texts and its progress.
* `StepResult`                 — what came of one call.
-/

namespace ChangeImpact

inductive PlanStep where
  | analysis
  | backup
  | preparation
  | execution
  | validation
  | cleanup
  deriving DecidableEq, Repr

instance : Vocabulary PlanStep where
  all := [.analysis, .backup, .preparation, .execution, .validation, .cleanup]
  word
    | .analysis => "analysis"
    | .backup => "backup"
    | .preparation => "preparation"
    | .execution => "execution"
    | .validation => "validation"
    | .cleanup => "cleanup"

namespace PlanStep

/-- The place of a step among the six. -/
def position : PlanStep → Nat
  | analysis => 0
  | backup => 1
  | preparation => 2
  | execution => 3
  | validation => 4
  | cleanup => 5

def next? : PlanStep → Option PlanStep
  | analysis => some backup
  | backup => some preparation
  | preparation => some execution
  | execution => some validation
  | validation => some cleanup
  | cleanup => none

/-- Each step leads to the one in the next place, and the last one nowhere. -/
theorem next?_eq_some_iff {s t : PlanStep} : s.next? = some t ↔ t.position = s.position + 1 := by
  cases s <;> cases t <;> decide

/-- What is said when a step is done. -/
def message : PlanStep → String
  | analysis => "Dependency analysis reviewed"
  | backup => "Backup created"
  | preparation => "Change prepared"
  | execution => "Change executed"
  | validation => "Change validated"
  | cleanup => "Cleanup finished"

end PlanStep

inductive PlanStatus where
  | pending
  | inProgress
  | completed
  | failed
  | rolledBack
  deriving DecidableEq, Repr

instance : Vocabulary PlanStatus where
  all := [.pending, .inProgress, .completed, .failed, .rolledBack]
  word
    | .pending => "pending"
    | .inProgress => "in_progress"
    | .completed => "completed"
    | .failed => "failed"
    | .rolledBack => "rolled_back"

structure Plan where
  id : String
  filePath : String
  changeType : Label ChangeType
  description : String
  createdAt : String
  updatedAt : String
  status : Label PlanStatus := .known .pending
  step : Label PlanStep := .known .analysis
  analysis : Option FileRecord := none
  impacts : List Impact := []
  procedure : List String := []
  risks : List String := []
  recommendations : List String := []
  rollbackPlan : List String := []
  validationChecks : List String := []
  lastError : Option String := none
  deriving DecidableEq, Repr

namespace Plan

def affected (p : Plan) : List String := affectedFiles p.impacts

/-- Nothing more happens to a plan that is completed or rolled back. -/
def isTerminal (p : Plan) : Bool :=
  p.status = .known .completed || p.status = .known .rolledBack

def isBreaking (i : Impact) : Bool := i.type = .known .breaking

def breakingCount (impacts : List Impact) : Nat := impacts.countP isBreaking

def isRisky (risk : Label RiskLevel) : Bool := risk = .known .high || risk = .known .critical

/-- Somebody should look at the plan before it runs. -/
def needsConfirmation (p : Plan) : Bool :=
  (p.analysis.map fun r => isRisky r.risk).getD false || p.impacts.any isBreaking

end Plan

structure StepResult where
  success : Bool
  message : String
  next : Option PlanStep := none
  deriving DecidableEq, Repr

def StepResult.text (r : StepResult) : String :=
  if r.success then "✅ " ++ r.message else "❌ " ++ r.message

end ChangeImpact
