import ChangeImpact.Document.JsonText
import ChangeImpact.Record.Format
import ChangeImpact.Risk

/-!
# Export.Report

The whole analysis as one document: a summary and every record under its path.
-/

namespace ChangeImpact

def Risk.Summary.toValue (s : Risk.Summary) : Value :=
  .object [
    ("total_files", .int s.totalFiles),
    ("high_risk_files", .int s.highRiskFiles),
    ("critical_files", .int s.criticalFiles),
    ("edges", .int s.edges)]

namespace Export

def reportValue (files : FileMap) : Value :=
  .object [
    ("summary", (Risk.summarize files).toValue),
    ("analysis", .object (files.entries.map fun e => (e.1, e.2.toValue)))]

def report (files : FileMap) : String := Json.pretty (reportValue files)

end Export

end ChangeImpact
