import ChangeImpact.Disk.Basic
import ChangeImpact.Log

/-!
# Disk.Scan

Collecting the source files below a directory.

* `ScanOptions`  — where to look, what to keep and what to pass over.
* `Scan`         — what has been found so far.
* `scanEntries`  — goes through the directories of a tree and follows no link to a directory.
* `scanLinked`   — follows links to directories and enters no directory twice.
* `scan`         — the files in ascending order of their segments, the problems and the log.
-/

namespace ChangeImpact

structure ScanOptions where
  root : String
  extensions : List String
  ignore : List String
  followLinks : Bool := false
  /-- How many times the question whether to stop is answered with no. -/
  cancelAfter : Option Nat := none

structure Scan where
  files : List String := []
  problems : List Failure := []
  log : Log := []
  /-- How many more times the question whether to stop will be answered with no. -/
  checks : Option Nat := none
  /-- The locations of the directories that were entered through links. -/
  visited : List (List String) := []

/-- The last point of a name and what follows it; points at the start do not count. -/
def extension (name : String) : String :=
  let body := name.toList.dropWhile (· = '.')
  if body.contains '.' then
    .ofList ('.' :: (body.reverse.takeWhile (· != '.')).reverse)
  else ""

namespace ScanOptions

def isIgnored (o : ScanOptions) (name : String) : Bool :=
  o.ignore.any fun pattern => Text.occursIn pattern name

def isWanted (o : ScanOptions) (name : String) : Bool := o.extensions.contains (extension name)

end ScanOptions

namespace Scan

def addFile (s : Scan) (path : String) : Scan := { s with files := s.files ++ [path] }

def addProblem (s : Scan) (path : String) (cause : String) : Scan :=
  let problem := Failure.unreadable path (some cause)
  { s with
    problems := s.problems ++ [problem]
    log := s.log ++ [{ level := .warning, source := "scanner", text := problem.message }] }

/-- Asks whether to stop before a directory is entered. -/
def checkpoint (s : Scan) (directory : String) : Bool × Scan :=
  match s.checks with
  | none => (false, s)
  | some 0 =>
    (true, { s with
      log := s.log ++
        [{ level := .info, source := "scanner", text := "Scan cancelled at " ++ directory }] })
  | some (n + 1) => (false, { s with checks := some n })

end Scan

/-- The path by which the system is asked about an entry. -/
def entryPath (directory name : String) : String := Path.join directory name

/-- Takes up a link that is not entered: it counts as a file when it leads to one. -/
def scanLink (o : ScanOptions) (d : Disk) (directory name : String) (s : Scan) : Scan :=
  let asked := entryPath directory name
  match d.status asked asked with
  | .ok (_, .file _) => if o.isWanted name then s.addFile (Path.child directory name) else s
  | .ok _ => s
  | .error (.disk .noEntry _) => s
  | .error e => s.addProblem (Path.child directory name) e.message

mutual

/-- An entry of the directory whose path is `directory`, with everything below it. -/
def scanNode (o : ScanOptions) (d : Disk) (directory name : String) : Node → Scan → Scan
  | .file _, s => if o.isWanted name then s.addFile (Path.child directory name) else s
  | .link _, s => scanLink o d directory name s
  | .dir below, s =>
    let path := Path.child directory name
    match s.checkpoint path with
    | (true, s) => s
    | (false, s) =>
      if Disk.isLongPath path then s.addProblem path (Fault.nameTooLong.message path)
      else scanEntries o d path below s

/-- The entries of a directory that are not ignored, one after another. -/
def scanEntries (o : ScanOptions) (d : Disk) (directory : String) :
    List (String × Node) → Scan → Scan
  | [], s => s
  | (name, node) :: rest, s =>
    scanEntries o d directory rest
      (if o.isIgnored name then s else scanNode o d directory name node s)

end

/-- Goes through a list of entries with a function for those that are directories. -/
def scanEach (o : ScanOptions) (d : Disk) (directory : String)
    (enter : String → Scan → Scan) (entries : Entries) (s : Scan) : Scan :=
  entries.foldl (fun s (name, node) =>
    if o.isIgnored name then s
    else
      let path := Path.child directory name
      match node with
      | .file _ => if o.isWanted name then s.addFile path else s
      | .dir _ => enter path s
      | .link _ =>
        let asked := entryPath directory name
        match d.status asked asked with
        | .ok (_, .dir _) => enter path s
        | .ok (_, .file _) => if o.isWanted name then s.addFile path else s
        | .ok _ => s
        | .error (.disk .noEntry _) => s
        | .error e => s.addProblem path e.message) s

/-- Enters the directory at `path` unless it has been entered before under any name. The fuel
bounds the depth; every step down enters one more directory of the disk. -/
def scanLinked (o : ScanOptions) (d : Disk) : Nat → String → Scan → Scan
  | 0, _, s => s
  | fuel + 1, path, s =>
    match s.checkpoint path with
    | (true, s) => s
    | (false, s) =>
      match d.status path path with
      | .ok (location, .dir entries) =>
        if s.visited.contains location then s
        else
          scanEach o d path (scanLinked o d fuel) entries
            { s with visited := location :: s.visited }
      | .ok _ => s.addProblem path (Fault.notDirectory.message path)
      | .error e => s.addProblem path e.message

mutual

/-- The number of directories in a tree, itself included. -/
def Node.directories : Node → Nat
  | .dir entries => Entries.directories entries + 1
  | _ => 0

def Entries.directories : List (String × Node) → Nat
  | [] => 0
  | (_, node) :: rest => Node.directories node + Entries.directories rest

end

def startScan (o : ScanOptions) (d : Disk) (root : String) (entries : Entries) : Scan :=
  let s : Scan := { checks := o.cancelAfter }
  if o.followLinks then scanLinked o d (Entries.directories d.top + 2) root s
  else
    match s.checkpoint root with
    | (true, s) => s
    | (false, s) => scanEntries o d root entries s

def scan (o : ScanOptions) (d : Disk) : Scan :=
  let root := Path.tidy o.root
  match d.status root root with
  | .ok (_, .dir entries) =>
    let s := startScan o d root entries
    let done := "Scanned " ++ root ++ ": " ++ Text.count s.files.length ++ " candidate file(s)"
    { s with log := s.log ++ [{ level := .info, source := "scanner", text := done }] }
  | .ok _ => ({} : Scan).addProblem root "not a directory"
  | .error e =>
    ({} : Scan).addProblem root (if Disk.meansAbsent e then "not a directory" else e.message)

end ChangeImpact
