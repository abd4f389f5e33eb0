import ChangeImpact.Disk.Node
import ChangeImpact.Failure
import ChangeImpact.Path.Slash

/-!
# Disk.Basic

The files that a program can reach, and what a path leads to.

* `Disk`         — a file tree and the working directory, where paths without a slash at the start
  begin.
* `Disk.place`   — the node that a path leads to, or the free name in an existing directory.
* `Disk.status`  — the node of a path, with every link on the way followed.
* `Disk.isDirectory`, `Disk.isRegular`, `Disk.isPresent` — questions that most faults answer
  with no.
-/

namespace ChangeImpact

structure Disk where
  /-- The entries of the directory at the top. -/
  top : Entries := []
  /-- The location of the working directory. -/
  here : List String := []
  /-- The path of the working directory as it is shown. -/
  hereShown : String := "/"

instance : Inhabited Disk := ⟨{}⟩

/-- Where a path leads: a location free of links that holds a node, or a name that is not taken
in the directory at a location. -/
inductive Place where
  | taken (location : List String)
  | free (directory : List String) (name : String)
  deriving DecidableEq, Repr

namespace Disk

def at? (d : Disk) (location : List String) : Option Node := d.top.at? location

/-- A name in a directory holds at most 255 bytes. -/
def isLongName (name : String) : Bool := 255 < name.utf8ByteSize

/-- A path holds at most 4095 bytes. -/
def isLongPath (path : String) : Bool := 4095 < path.utf8ByteSize

/-- Goes through the segments of a path from a directory on; the directory at the top is its own
parent. `followLast` tells whether a link at
the very end is followed, and `follow` goes on from a link. -/
def walkFrom (d : Disk) (followLast : Bool)
    (follow : List String → List String → Except Fault Place) :
    List String → List String → Except Fault Place
  | here, [] => .ok (.taken here)
  | here, segment :: rest =>
    if Path.isDot segment then walkFrom d followLast follow here rest
    else if segment = ".." then
      walkFrom d followLast follow here.dropLast rest
    else if isLongName segment then .error .nameTooLong
    else
      match d.at? (here ++ [segment]) with
      | none => if rest.isEmpty then .ok (.free here segment) else .error .noEntry
      | some (.dir _) => walkFrom d followLast follow (here ++ [segment]) rest
      | some (.file _) =>
        if rest.isEmpty then .ok (.taken (here ++ [segment])) else .error .notDirectory
      | some (.link target) =>
        if rest.isEmpty && !followLast then .ok (.taken (here ++ [segment]))
        else follow (if Path.isRooted target then [] else here) (Path.segments target ++ rest)

/-- At most `hops` links are followed. -/
def walk (d : Disk) (followLast : Bool) : Nat → List String → List String → Except Fault Place
  | 0 => walkFrom d followLast fun _ _ => .error .linkLoop
  | hops + 1 => walkFrom d followLast (walk d followLast hops)

/-- The system follows forty links on one path. -/
def maxHops : Nat := 40

def placeOf (d : Disk) (followLast : Bool) (path : String) : Except Fault Place :=
  if isLongPath path then .error .nameTooLong
  else if path = "" then .error .noEntry
  else walk d followLast maxHops (if Path.isRooted path then [] else d.here) (Path.segments path)

def hasNull (path : String) : Bool := path.toList.contains '\x00'

/-- `placeOf`, with the fault told of the path `shown`. -/
def place (d : Disk) (followLast : Bool) (path shown : String) : Except Failure Place :=
  if hasNull path then .error .nullInPath
  else
    match d.placeOf followLast path with
    | .error f => .error (.disk f shown)
    | .ok p => .ok p

/-- The location and the node of a path. -/
def status (d : Disk) (path shown : String) : Except Failure (List String × Node) :=
  match d.place true path shown with
  | .error e => .error e
  | .ok (.free ..) => .error (.disk .noEntry shown)
  | .ok (.taken location) =>
    match d.at? location with
    | some node => .ok (location, node)
    | none => .error (.disk .noEntry shown)

/-- Faults that mean that nothing is there. -/
def meansAbsent : Failure → Bool
  | .disk .noEntry _ => true
  | .disk .notDirectory _ => true
  | .disk .linkLoop _ => true
  | .nullInPath => true
  | _ => false

/-- A question about the node of a path. -/
def asks (d : Disk) (path : String) (question : Node → Bool) : Except Failure Bool :=
  match d.status path path with
  | .ok (_, node) => .ok (question node)
  | .error e => if meansAbsent e then .ok false else .error e

def isPresent (d : Disk) (path : String) : Except Failure Bool := d.asks path fun _ => true

def isDirectory (d : Disk) (path : String) : Except Failure Bool := d.asks path Node.isDir

def isRegular (d : Disk) (path : String) : Except Failure Bool := d.asks path Node.isFile

end Disk

end ChangeImpact
