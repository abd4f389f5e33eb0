import ChangeImpact.Plan.Basic
import ChangeImpact.Record.Format

/-!
# Plan.Format

Plans as values of a document, and back.

* `Plan.toValue` — every field in the order of the type, then the affected files.
* `Plan.ofValue` — id, file, change type and both times are needed; everything else has a value of
  its own when it is absent. Unknown fields and the affected files are passed over.
-/

namespace ChangeImpact

/-- Values that stand for nothing: null, false, zero, and empty texts, lists and objects. -/
def Value.isNothing : Value → Bool
  | .null => true
  | .bool b => !b
  | .int n => n = 0
  | .float (.finite _ m _) => m = 0
  | .float _ => false
  | .text s => s = ""
  | .list items => items.isEmpty
  | .object fields => fields.isEmpty

namespace Plan

def toValue (p : Plan) : Value :=
  .object [
    ("id", .text p.id),
    ("file_path", .text p.filePath),
    ("change_type", .text p.changeType.text),
    ("description", .text p.description),
    ("created_at", .text p.createdAt),
    ("updated_at", .text p.updatedAt),
    ("status", .text p.status.text),
    ("current_step", .text p.step.text),
    ("analysis", (p.analysis.map FileRecord.toValue).getD .null),
    ("impacts", .list (p.impacts.map Impact.toValue)),
    ("procedure", Value.texts p.procedure),
    ("risks", Value.texts p.risks),
    ("recommendations", Value.texts p.recommendations),
    ("rollback_plan", Value.texts p.rollbackPlan),
    ("validation_checks", Value.texts p.validationChecks),
    ("last_error", Value.ofOption p.lastError),
    ("affected_files", Value.texts p.affected)]

def analysisOf (v : Value) : Except Failure (Option FileRecord) :=
  if v.isNothing then .ok none else (FileRecord.ofValue v).map some

def ofFields (fields : List (String × Value)) : Except Failure Plan := do
  return {
    id := ← Value.required fields "id" Value.asText
    filePath := ← Value.required fields "file_path" Value.asText
    changeType := ← Value.required fields "change_type" Value.asLabel
    description := ← Value.optional fields "description" Value.asText ""
    createdAt := ← Value.required fields "created_at" Value.asText
    updatedAt := ← Value.required fields "updated_at" Value.asText
    status := ← Value.optional fields "status" Value.asLabel (.known .pending)
    step := ← Value.optional fields "current_step" Value.asLabel (.known .analysis)
    analysis := ← Value.optional fields "analysis" analysisOf none
    impacts := ← Value.optional fields "impacts" (Value.asListOf Impact.ofValue) []
    procedure := ← Value.optional fields "procedure" Value.asTexts []
    risks := ← Value.optional fields "risks" Value.asTexts []
    recommendations := ← Value.optional fields "recommendations" Value.asTexts []
    rollbackPlan := ← Value.optional fields "rollback_plan" Value.asTexts []
    validationChecks := ← Value.optional fields "validation_checks" Value.asTexts []
    lastError := ← Value.optional fields "last_error" Value.asOptionalText none }

def ofValue : Value → Except Failure Plan
  | .object fields => ofFields fields
  | _ => .error .noFields

end Plan

def StepResult.toValue (r : StepResult) : Value :=
  .object [
    ("success", .bool r.success),
    ("message", .text r.message),
    ("next_step", Value.ofOption (r.next.map Vocabulary.word))]

end ChangeImpact
