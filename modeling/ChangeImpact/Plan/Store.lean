import ChangeImpact.Disk.Files
import ChangeImpact.Document.JsonReader
import ChangeImpact.Document.JsonText
import ChangeImpact.Plan.Format
import ChangeImpact.Plan.Id

/-!
# Plan.Store

Where plans are kept between calls.

* `PlanStore`         — in memory, or as one file for each plan in a directory.
* `Storage`           — a store together with the disk that its files are on.
* `Storage.get`, `Storage.save`, `Storage.delete`, `Storage.ids`, `Storage.list`.
* `Storage.openFolder` — provides the directory of a store of files.
-/

namespace ChangeImpact

inductive PlanStore where
  | memory (plans : Keyed Plan)
  | folder (directory : String)

structure Storage where
  disk : Disk
  store : PlanStore

namespace Storage

def openFolder (disk : Disk) (directory : String) : Except Failure Storage :=
  match disk.makeDirectories directory with
  | .ok disk => .ok { disk, store := .folder directory }
  | .error e => .error e

def planFile (directory id : String) : String := Path.child directory (id ++ ".json")

def corrupt (path : String) (cause : Failure) : LogEntry :=
  { level := .warning, source := "storage", text := "Corrupt plan file " ++ path ++ ": "
    cause := some cause }

/-- The plan that the text of a file stands for. -/
def planOfText (text : String) : Except Failure Plan :=
  match Json.parse? text with
  | none => .error .badJson
  | some v => Plan.ofValue v

/-- The text that a plan is kept as. -/
def textOfPlan (p : Plan) : String := Json.pretty p.toValue

/-- A file that holds no plan is reported and counts as absent. -/
def readPlan (disk : Disk) (path : String) : Except Failure (Option Plan) × Log :=
  match disk.isPresent path with
  | .error e => (.error e, [])
  | .ok false => (.ok none, [])
  | .ok true =>
    match disk.readText path path with
    | .error e => (.error e, [])
    | .ok text =>
      match planOfText text with
      | .ok p => (.ok (some p), [])
      | .error e => (.ok none, [corrupt path e])

def get (s : Storage) (id : String) : Except Failure (Option Plan) × Log :=
  match s.store with
  | .memory plans => (.ok (plans.get? id), [])
  | .folder directory =>
    if PlanId.isValid id then readPlan s.disk (planFile directory id) else (.ok none, [])

/-- Keeps a plan under its own id. -/
def save (s : Storage) (p : Plan) : Except Failure Storage :=
  match s.store with
  | .memory plans => .ok { s with store := .memory (plans.insert p.id p) }
  | .folder directory =>
    if PlanId.isValid p.id then
      match s.disk.writeText (planFile directory p.id) (textOfPlan p) with
      | .ok disk => .ok { s with disk }
      | .error e => .error e
    else .error (.invalidPlanId p.id)

/-- Takes a plan out of the store; tells whether it was there. -/
def delete (s : Storage) (id : String) : Except Failure (Bool × Storage) :=
  match s.store with
  | .memory plans =>
    .ok (plans.contains id, { s with store := .memory (plans.erase id) })
  | .folder directory =>
    if !PlanId.isValid id then .ok (false, s)
    else
      let path := planFile directory id
      match s.disk.isPresent path with
      | .error e => .error e
      | .ok false => .ok (false, s)
      | .ok true =>
        match s.disk.unlink path with
        | .ok disk => .ok (true, { s with disk })
        | .error e => .error e

/-- A name without its last extension; a point at either end starts none. -/
def stem (name : String) : String :=
  let tail := name.toList.reverse.takeWhile (· != '.')
  let head := (name.toList.reverse.drop (tail.length + 1)).reverse
  if tail.isEmpty || head.isEmpty then name else .ofList head

def endsWith (ending name : String) : Bool := ending.toList.reverse.isPrefixOf name.toList.reverse

/-- The entries of a directory, none when it is not there. -/
def entriesAt (disk : Disk) (directory : String) : Except Failure Entries :=
  match disk.status directory directory with
  | .ok (_, .dir entries) => .ok entries
  | .ok _ => .ok []
  | .error e => if Disk.meansAbsent e then .ok [] else .error e

/-- In memory, the order in which plans were registered; otherwise the names of the plan files in
ascending order, whatever they hold. -/
def ids (s : Storage) : Except Failure (List String) :=
  match s.store with
  | .memory plans => .ok plans.keys
  | .folder directory =>
    (entriesAt s.disk directory).map fun entries =>
      (((entries.map (·.1)).filter (endsWith ".json")).map stem).mergeSort
        fun a b => decide (a ≤ b)

/-- The plans under the given ids, those that are absent left out. -/
def getAll (s : Storage) : List String → Except Failure (List Plan) × Log
  | [] => (.ok [], [])
  | id :: rest =>
    match s.get id with
    | (.error e, log) => (.error e, log)
    | (.ok found, log) =>
      let (result, more) := getAll s rest
      (result.map (found.toList ++ ·), log ++ more)

/-- All plans by the time of their creation; plans of one time keep the order of their ids. -/
def list (s : Storage) : Except Failure (List Plan) × Log :=
  match s.ids with
  | .error e => (.error e, [])
  | .ok ids =>
    let (result, log) := s.getAll ids
    (result.map fun plans => plans.mergeSort fun p q => decide (p.createdAt ≤ q.createdAt), log)

end Storage

end ChangeImpact
