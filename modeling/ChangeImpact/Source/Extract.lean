import ChangeImpact.Log
import ChangeImpact.Source.Exports
import ChangeImpact.Source.Imports

/-!
# Source.Extract

The imports and exports of whole source texts.

* `Extraction`, `Extractor` — what an extractor finds, or why it fails.
* `Extractor.textual`       — the extractor that looks at each line on its own.
* `analyzeFiles`            — the records of many files; a file that the extractor fails on is
  reported and left out.
-/

namespace ChangeImpact

structure Extraction where
  imports : List ImportEdge
  exports : List ExportSymbol

abbrev Extractor := (path text : String) → Except Failure Extraction

namespace Source

/-- The lines of a text without blanks at their ends, numbered from one. -/
def numberedLines (text : String) : List (Nat × List Char) :=
  ((Text.splitOn '\n' text.toList).map Text.strip).zipIdx 1 |>.map fun (line, n) => (n, line)

def importsOf (path text : String) : List ImportEdge :=
  (numberedLines text).flatMap fun (n, line) => lineImports path n line

def exportsOf (text : String) : List ExportSymbol :=
  (numberedLines text).flatMap fun (n, line) => lineExports n line

end Source

def Extractor.textual : Extractor := fun path text =>
  .ok { imports := Source.importsOf path text, exports := Source.exportsOf text }

/-- An extractor that fails on some paths. -/
def Extractor.failingOn (paths : List String) (failure : Failure) (e : Extractor) : Extractor :=
  fun path text => if paths.contains path then .error failure else e path text

namespace Source

def analyzeFile (extractor : Extractor) (path text : String) : Except Failure FileRecord :=
  (extractor path text).map fun found =>
    { path, imports := found.imports, exports := found.exports }

/-- The records in the order of the sources, and a line for each file left out. -/
def analyzeFiles (extractor : Extractor) (sources : Keyed String) : FileMap × Log :=
  let results := sources.mapValues (analyzeFile extractor)
  (results.filterMap fun _ r => r.toOption,
    results.entries.filterMap fun (path, r) =>
      match r with
      | .ok _ => none
      | .error f => some
        { level := .error, source := "parser", text := "Failed to analyze " ++ path ++ ": ",
          cause := some f })

end Source

end ChangeImpact
