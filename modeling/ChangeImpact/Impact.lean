import ChangeImpact.Failure
import ChangeImpact.Record.Basic

/-!
# Impact

Which files a change of one file reaches, two steps against the direction of the dependencies.

* `ChangeKind`       — the kinds of change that impact is predicted for.
* `predict`          — an entry for every way in which a file is reached, direct ones first.
* `ChangeType`, `ChangeType.kind` — the changes that are planned, and the kind each counts as.
-/

namespace ChangeImpact

inductive ChangeKind where
  | modify
  | delete
  | rename
  deriving DecidableEq, Repr

instance : Vocabulary ChangeKind where
  all := [.modify, .delete, .rename]
  word
    | .modify => "modify"
    | .delete => "delete"
    | .rename => "rename"

inductive ChangeType where
  | modify
  | delete
  | rename
  | move
  | add
  deriving DecidableEq, Repr

instance : Vocabulary ChangeType where
  all := [.modify, .delete, .rename, .move, .add]
  word
    | .modify => "modify"
    | .delete => "delete"
    | .rename => "rename"
    | .move => "move"
    | .add => "add"

/-- A new file counts as a modification and a move as a renaming. -/
def ChangeType.kind : ChangeType → ChangeKind
  | modify => .modify
  | delete => .delete
  | rename => .rename
  | move => .rename
  | add => .modify

namespace Impact

def direct (kind : ChangeKind) (file : String) : Impact :=
  { file
    type := .known (if kind = .delete then .breaking else .undecided)
    description := Vocabulary.word kind ++ " change directly affects this file"
    severity := .known (if kind = .delete then .critical else .medium) }

def indirect (kind : ChangeKind) (file : String) : Impact :=
  { file
    type := .known .undecided
    description := Vocabulary.word kind ++ " change indirectly affects this file"
    severity := .known .low }

/-- What depends on a file, nothing for a file that is not in the map. -/
def dependentsIn (files : FileMap) (path : String) : List String :=
  ((files.get? path).map (·.dependents)).getD []

/-- A file that is reached in several ways has several entries. -/
def predict (files : FileMap) (target : String) (kind : ChangeKind) : List Impact :=
  let near := dependentsIn files target
  near.map (direct kind) ++ (near.flatMap (dependentsIn files)).map (indirect kind)

/-- The prediction for a kind of change given by its word. -/
def predictFor (files : FileMap) (target kind : String) : Except Failure (List Impact) :=
  match Vocabulary.ofWord? kind with
  | some k => .ok (predict files target k)
  | none => .error (.unsupportedChangeKind kind)

end Impact

end ChangeImpact
