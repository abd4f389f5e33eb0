import ChangeImpact.Disk.Files
import ChangeImpact.Disk.Scan
import ChangeImpact.Graph.Build
import ChangeImpact.Risk
import ChangeImpact.Settings.Basic
import ChangeImpact.Source.Extract

/-!
# Project

The analysis of a whole project, from the files on disk to the scored dependency graph.

* `Project.analyzeSources` — the graph of texts that are at hand.
* `Project.analyze`        — scans, reads and analyzes a directory, afresh every time.
* `Project.analyzeFile`    — the imports and exports of one file.
-/

namespace ChangeImpact

namespace Project

/-- Records of all sources, linked and scored; the log tells of files left out. -/
def graphOf (extensions : List String) (extractor : Extractor) (sources : Keyed String) :
    Graph.Built × Log :=
  let (files, log) := Source.analyzeFiles extractor sources
  let built := Graph.build extensions files
  ({ built with files := Risk.scoreAll built.files }, log ++ [built.log])

def analyzeSources (extensions : List String) (extractor : Extractor) (sources : Keyed String) :
    FileMap :=
  (graphOf extensions extractor sources).1.files

def scanOptions (s : ScanSettings) (root : Option String) (cancelAfter : Option Nat) :
    ScanOptions :=
  { root := root.getD s.root, extensions := s.extensions, ignore := s.ignore, cancelAfter }

def info (text : String) : LogEntry := { level := .info, source := "orchestrator", text }

/-- `root` takes the place of the configured root. -/
def build (s : ScanSettings) (extractor : Extractor) (cancelAfter : Option Nat) (d : Disk)
    (root : Option String) : Except Failure Graph.Built × Log :=
  let found := scan (scanOptions s root cancelAfter) d
  let started := info ("Analyzing dependencies of " ++ Text.count found.files.length ++ " file(s)")
  match readSources d found.files with
  | (.error e, log) => (.error e, found.log ++ [started] ++ log)
  | (.ok sources, log) =>
    let (built, analysisLog) := graphOf s.extensions extractor sources
    let done := info ("Dependency analysis complete: " ++ Text.count built.files.size
      ++ " file(s)")
    (.ok built, found.log ++ [started] ++ log ++ analysisLog ++ [done])

def analyze (s : ScanSettings) (d : Disk) (root : Option String) :
    Except Failure FileMap × Log :=
  let (result, log) := build s .textual none d root
  (result.map (·.files), log)

/-- A file that cannot be read is reported and has no record. -/
def analyzeFile (d : Disk) (path : String) : Except Failure (Option FileRecord) × Log :=
  let path := Path.tidy path
  match d.readLossy path path with
  | .ok text => ((Source.analyzeFile .textual path text).map some, [])
  | .error (.disk f p) =>
    (.ok none,
      [{ level := .error, source := "orchestrator"
         text := "Failed to analyze " ++ path ++ ": ", cause := some (.disk f p) }])
  | .error e => (.error e, [])

end Project

end ChangeImpact
