import ChangeImpact.Disk.Basic

/-!
# Disk.Image

A disk as an image of part of a system's files.

* `Entries.graft`   — puts a node in place together with the directories above it.
* `Change`          — what has to be done to the files for a change of the image.
* `Disk.changes`    — the changes that lead from one image to another.
-/

namespace ChangeImpact

def Entries.graft : List String → Node → Entries → Entries
  | [], _, es => es
  | [n], x, es => set n x es
  | n :: rest, x, es =>
    match find? n es with
    | some (.dir sub) => set n (.dir (graft rest x sub)) es
    | _ => set n (.dir (graft rest x [])) es

inductive Change where
  | makeDirectory (location : List String)
  | write (location : List String) (bytes : ByteArray)
  | remove (location : List String)

def removals (location : List String) (old new : Entries) : List Change :=
  (old.filter fun e => (new.find? e.1).isNone).map fun e => .remove (location ++ [e.1])

mutual

/-- What makes a node out of what was there before, if anything was. -/
def Node.changes (location : List String) (old : Option Node) : Node → List Change
  | .dir new =>
    match old with
    | some (.dir entries) => removals location entries new ++ Entries.changes location entries new
    | _ => .makeDirectory location :: Entries.changes location [] new
  | .file bytes =>
    match old with
    | some (.file before) => if before = bytes then [] else [.write location bytes]
    | _ => [.write location bytes]
  | .link _ => []

def Entries.changes (location : List String) (old : Entries) : List (String × Node) → List Change
  | [] => []
  | (name, node) :: rest =>
    Node.changes (location ++ [name]) (Entries.find? name old) node
      ++ Entries.changes location old rest

end

def Disk.changes (old new : Disk) : List Change :=
  removals [] old.top new.top ++ Entries.changes [] old.top new.top

end ChangeImpact
