import ChangeImpact.Plan.Basic
import ChangeImpact.Text.Search
import ChangeImpact.Text.Integer

/-!
# Plan.Texts

The texts of a plan: what to do, how to undo it, what to check, what may go wrong and what is
recommended.
-/

namespace ChangeImpact.Plan

/-- Each text behind its number. -/
def numbered (texts : List String) : List String :=
  (texts.zipIdx 1).map fun (t, n) => Text.count n ++ ". " ++ t

def changeTexts : Label ChangeType → List String
  | .known .delete => ["Remove all references", "Delete the file"]
  | .known .rename =>
    ["Create the file under its new name", "Update all references", "Remove the old file"]
  | .known .move =>
    ["Copy the file to its new location", "Update import paths", "Remove the old file"]
  | .known .add => ["Create the file"]
  | _ => ["Modify the file"]

def procedureTexts (type : Label ChangeType) (impacts : List Impact) : List String :=
  numbered (["Complete dependency analysis", "Create backup",
      "Review affected files (" ++ Text.count (affectedFiles impacts).length ++ ")"]
    ++ changeTexts type ++ ["Validate the change", "Run tests", "Update documentation"])

def undoTexts : Label ChangeType → List String
  | .known .delete => ["Restore the deleted file"]
  | .known .rename => ["Rename the file back", "Restore all references"]
  | .known .move => ["Move the file back", "Restore import paths"]
  | .known .add => ["Remove the added file"]
  | _ => ["Restore the modified file to its original content"]

def rollbackTexts (type : Label ChangeType) (impacts : List Impact) : List String :=
  numbered (["Restore original file from backup"] ++ undoTexts type
    ++ (if impacts.isEmpty then [] else ["Restore affected files"]) ++ ["Validate and run tests"])

def checkTexts (path : String) (record : FileRecord) : List String :=
  ["No syntax errors", "No type errors", "No lint errors"]
    ++ (if record.dependents.isEmpty then []
      else ["Dependent files work", "Import/export relationships intact"])
    ++ (if Text.occursIn "/api/" path then ["API endpoints respond", "Error handling works"]
      else [])
    ++ (if Text.occursIn "/utils/" path then ["Utility functions work", "All call sites work"]
      else [])

def riskTexts (record : FileRecord) (impacts : List Impact) : List String :=
  (match record.risk with
    | .known .critical => ["Critical risk file: change carefully"]
    | .known .high => ["High risk file: change carefully"]
    | _ => [])
    ++ (if 10 < impacts.length then ["Many files affected: run broad tests"] else [])
    ++ (if impacts.any isBreaking then
        ["Breaking change detected: backward compatibility at risk"]
      else [])

def adviceTexts : Label ChangeType → List String
  | .known .delete => ["Remove all references before deleting", "Prepare a replacement"]
  | .known .rename => ["Rename in stages and keep an alias meanwhile", "Update all references"]
  | .known .move => ["Keep a re-export at the old path meanwhile", "Update all import paths"]
  | .known .modify =>
    ["Keep backward compatibility", "Version the API if its contract changes"]
  | _ => []

def recommendationTexts (type : Label ChangeType) (record : FileRecord) : List String :=
  adviceTexts type
    ++ (if 5 < record.dependents.length then ["Many dependents: consider a staged change"]
      else [])
    ++ ["Run the full test suite after the change", "Update documentation"]

end ChangeImpact.Plan
