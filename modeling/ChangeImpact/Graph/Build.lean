import ChangeImpact.Graph.Resolve
import ChangeImpact.Log
import ChangeImpact.Record.Basic

/-!
# Graph.Build

The dependency graph of a complete set of file records.

* `linkImport`        — a relative import with the file it resolves to.
* `Links`, `linkFile` — going through the imports of one file: what they lead to, and the files
  that this one depends on, each once and itself never.
* `linkFiles`         — the first pass, over all files.
* `invert`            — the second pass: every dependency is entered with the file it leads to.
* `build`             — both passes; nothing but the imports counts.
* `asymmetries`       — where dependencies and dependents do not agree.
-/

namespace ChangeImpact.Graph

def isRelative (edge : ImportEdge) : Bool := edge.kind = .known .relative

/-- Other imports than relative ones are left as they are. -/
def linkImport (isKnown : String → Bool) (extensions : List String) (path : String)
    (edge : ImportEdge) : ImportEdge :=
  if isRelative edge then
    { edge with resolved := resolve isKnown extensions path edge.specifier }
  else edge

/-- What the imports of one file have led to so far. -/
structure Links where
  imports : List ImportEdge := []
  dependencies : List String := []
  unresolved : List ImportEdge := []
  edgeCount : Nat := 0

/-- Takes up one import of the file at `path`, which has been linked. -/
def Links.add (path : String) (l : Links) (edge : ImportEdge) : Links :=
  let l := { l with imports := l.imports ++ [edge] }
  if isRelative edge then
    match edge.resolved with
    | none => { l with unresolved := l.unresolved ++ [edge] }
    | some target =>
      if target = path || l.dependencies.contains target then l
      else { l with dependencies := l.dependencies ++ [target], edgeCount := l.edgeCount + 1 }
  else l

def linkFile (isKnown : String → Bool) (extensions : List String) (path : String)
    (record : FileRecord) : Links :=
  record.imports.foldl (fun l edge => l.add path (linkImport isKnown extensions path edge)) {}

def linkFiles (extensions : List String) (files : FileMap) : Keyed (FileRecord × Links) :=
  files.mapValues fun path record => (record, linkFile files.contains extensions path record)

/-- A record with its links; what depends on the file is not yet known. -/
def linked (record : FileRecord) (l : Links) : FileRecord :=
  { record with imports := l.imports, dependencies := l.dependencies, dependents := [] }

/-- The file at `path` depends on the one at `target`. -/
def addDependent (path : String) (files : FileMap) (target : String) : FileMap :=
  files.mapValues fun key record =>
    if key = target then { record with dependents := record.dependents ++ [path] } else record

/-- The second pass runs over dependencies all of which are complete. -/
def invert (files : FileMap) : FileMap :=
  files.entries.foldl
    (fun inverted (path, record) => record.dependencies.foldl (addDependent path) inverted) files

structure Built where
  files : FileMap
  edgeCount : Nat
  unresolved : List ImportEdge

def build (extensions : List String) (files : FileMap) : Built :=
  let links := linkFiles extensions files
  { files := invert (links.mapValues fun _ (record, l) => linked record l)
    edgeCount := links.total (·.2.edgeCount)
    unresolved := links.values.flatMap (·.2.unresolved) }

def Built.log (b : Built) : LogEntry :=
  { level := .info, source := "graph"
    text := "Built dependency graph: " ++ Text.count b.files.size ++ " file(s), "
      ++ Text.count b.edgeCount ++ " edge(s)" }

/-- One line for each edge that is known on one side only. -/
def asymmetries (files : FileMap) : List String :=
  files.entries.flatMap fun (path, record) =>
    let missing := record.dependencies.filter fun d =>
      !((files.get? d).map fun r => r.dependents.contains path).getD false
    let unfounded := record.dependents.filter fun d =>
      !((files.get? d).map fun r => r.dependencies.contains path).getD false
    missing.map (fun d => path ++ " -> " ++ d ++ " missing from dependents")
      ++ unfounded.map fun d =>
        d ++ " listed as dependent of " ++ path ++ " without dependency"

end ChangeImpact.Graph
