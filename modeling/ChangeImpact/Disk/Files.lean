import ChangeImpact.Disk.Basic
import ChangeImpact.Keyed
import ChangeImpact.Log
import ChangeImpact.Text.Newline
import ChangeImpact.Text.Utf8

/-!
# Disk.Files

Reading, writing and removing files.

* `Disk.readBytes`, `Disk.readText`, `Disk.readLossy` — the contents of a file; text has its line
  ends normalized.
* `Disk.write`        — replaces or creates a file in a directory that exists.
* `Disk.makeDirectories`, `Disk.provide` — directories along a path, and a file with them.
* `Disk.unlink`, `Disk.removeTree` — takes an entry away.
* `readSources`       — the texts of many files; those that cannot be read are reported.
-/

namespace ChangeImpact

namespace Disk

/-- The bytes of a file; `shown` is the path that faults are told of. -/
def readBytes (d : Disk) (path shown : String) : Except Failure ByteArray :=
  match d.status path shown with
  | .error e => .error e
  | .ok (_, .file bytes) => .ok bytes
  | .ok (_, .dir _) => .error (.disk .isDirectory shown)
  | .ok (_, .link _) => .error (.disk .linkLoop shown)

def normalized (s : String) : String := .ofList (Text.normalizeNewlines s.toList)

/-- The text of a file, all of whose bytes have to be well formed. -/
def readText (d : Disk) (path shown : String) : Except Failure String :=
  match d.readBytes path shown with
  | .error e => .error e
  | .ok bytes =>
    match Text.Utf8.decode? bytes with
    | some s => .ok (normalized s)
    | none => .error (.badEncoding (Text.Utf8.firstFault? bytes))

/-- The text of a file without its malformed bytes. -/
def readLossy (d : Disk) (path shown : String) : Except Failure String :=
  (d.readBytes path shown).map fun bytes => normalized (Text.Utf8.decodeLossy bytes)

def put (d : Disk) (location : List String) (node : Node) : Disk :=
  { d with top := d.top.put location node }

def write (d : Disk) (path : String) (bytes : ByteArray) : Except Failure Disk :=
  match d.place true path path with
  | .error e => .error e
  | .ok (.free directory name) => .ok (d.put (directory ++ [name]) (.file bytes))
  | .ok (.taken location) =>
    match d.at? location with
    | some (.dir _) => .error (.disk .isDirectory path)
    | _ => .ok (d.put location (.file bytes))

def writeText (d : Disk) (path text : String) : Except Failure Disk := d.write path text.toUTF8

/-- Creates one directory in one that exists. -/
def makeDirectory (d : Disk) (path : String) : Except Failure Disk :=
  match d.place false path path with
  | .error e => .error e
  | .ok (.free directory name) => .ok (d.put (directory ++ [name]) (.dir []))
  | .ok (.taken _) => .error (.disk .alreadyExists path)

/-- A directory that is there already will do; the fault of anything else is told. -/
def provideDirectory (d : Disk) (path : String) : Except Failure Disk :=
  match d.makeDirectory path with
  | .ok d => .ok d
  | .error e =>
    match d.isDirectory path with
    | .ok true => .ok d
    | _ => .error e

/-- A directory and those above it: where one above is missing it is made first. -/
def makeDirectoriesAbove (d : Disk) : Nat → String → Except Failure Disk
  | 0, path => d.provideDirectory path
  | fuel + 1, path =>
    match d.makeDirectory path with
    | .ok d => .ok d
    | .error (.disk .noEntry _) =>
      let above := Path.directory path
      if above = "" then .error (.disk .noEntry path)
      else
        match makeDirectoriesAbove d fuel above with
        | .error e => .error e
        | .ok d => d.provideDirectory path
    | .error _ => d.provideDirectory path

def makeDirectories (d : Disk) (path : String) : Except Failure Disk :=
  d.makeDirectoriesAbove path.length path

/-- Puts a file or a link in place together with the directories above it. -/
def provide (d : Disk) (path : String) (node : Node) : Except Failure Disk :=
  let above := Path.directory path
  let made := if above = "" then .ok d else d.makeDirectories above
  match made with
  | .error e => .error e
  | .ok d =>
    match node with
    | .file bytes => d.write path bytes
    | node =>
      match d.place false path path with
      | .error e => .error e
      | .ok (.free directory name) => .ok (d.put (directory ++ [name]) node)
      | .ok (.taken _) => .error (.disk .alreadyExists path)

/-- Takes a file or a link away. -/
def unlink (d : Disk) (path : String) : Except Failure Disk :=
  match d.place false path path with
  | .error e => .error e
  | .ok (.free ..) => .error (.disk .noEntry path)
  | .ok (.taken location) =>
    match d.at? location with
    | some (.dir _) => .error (.disk .isDirectory path)
    | _ => .ok { d with top := d.top.remove location }

/-- Takes a directory away with everything in it. -/
def removeTree (d : Disk) (path : String) : Except Failure Disk :=
  match d.place false path path with
  | .error e => .error e
  | .ok (.free ..) => .error (.disk .noEntry path)
  | .ok (.taken location) =>
    match d.at? location with
    | some (.dir _) => .ok { d with top := d.top.remove location }
    | _ => .error (.disk .notDirectory path)

end Disk

/-- Reads each path once for every time it is given; a path that cannot be read is reported and
left out. A path that no file can have ends the reading. -/
def readSourcesFrom (d : Disk) (read : Keyed String) (log : Log) :
    List String → Except Failure (Keyed String) × Log
  | [] => (.ok read, log)
  | path :: rest =>
    match d.readLossy path path with
    | .ok text => readSourcesFrom d (read.insert path text) log rest
    | .error (.disk f p) =>
      let entry : LogEntry :=
        { level := .warning, source := "scanner"
          text := (Failure.unreadable path (some (f.message p))).message }
      readSourcesFrom d read (log ++ [entry]) rest
    | .error e => (.error e, log)

def readSources (d : Disk) (paths : List String) : Except Failure (Keyed String) × Log :=
  readSourcesFrom d .empty [] paths

end ChangeImpact
