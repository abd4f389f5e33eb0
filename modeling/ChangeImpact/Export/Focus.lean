import ChangeImpact.Failure
import ChangeImpact.Record.Basic
import ChangeImpact.Text.Search

/-!
# Export.Focus

The part of the dependency graph that an export shows.

* `edges`  — every dependency as a pair of files.
* `select` — the files whose path contains the focus with all their neighbours and the edges
  between the two; the whole graph when there is no focus or no path contains it.
-/

namespace ChangeImpact.Export

structure Selection where
  nodes : List String
  edges : List (String × String)
  deriving DecidableEq, Repr

def edges (files : FileMap) : List (String × String) :=
  files.entries.flatMap fun (path, r) => r.dependencies.map fun d => (path, d)

def whole (files : FileMap) : Selection := { nodes := files.keys, edges := edges files }

def sorted (texts : List String) : List String := texts.mergeSort fun a b => decide (a ≤ b)

def select (files : FileMap) (focus : String) : Selection :=
  let inFocus := files.keys.filter fun p => Text.occursIn focus p
  if focus = "" || inFocus.isEmpty then whole files
  else
    let near := (edges files).filter fun e => inFocus.contains e.1 || inFocus.contains e.2
    let ends := near.flatMap fun e => [e.1, e.2]
    { nodes := sorted (inFocus ++ ends).eraseDups, edges := near }

/-- The record of a node of a selection and the colour of its risk level. -/
def shown (files : FileMap) (path : String) : Except Failure (FileRecord × String) :=
  match files.get? path with
  | none => .error (.missingKey path)
  | some r =>
    match r.risk with
    | .known .low => .ok (r, "#8bc34a")
    | .known .medium => .ok (r, "#ffc107")
    | .known .high => .ok (r, "#ff7043")
    | .known .critical => .ok (r, "#e53935")
    | .other word => .error (.missingKey word)

end ChangeImpact.Export
