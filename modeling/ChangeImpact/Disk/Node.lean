/-!
# Disk.Node

A file tree as a value.

* `Node` — a file with its bytes, a symbolic link with its target, or a directory.
* `Entries` — the entries of a directory by ascending name.
* `Entries.find?`, `Entries.set`, `Entries.drop` — one entry looked up, put and taken away.
* `Entries.at?`, `Entries.put`, `Entries.remove` — the same along a list of names.
-/

namespace ChangeImpact

inductive Node where
  | file (bytes : ByteArray)
  | link (target : String)
  | dir (entries : List (String × Node))

def Node.isDir : Node → Bool
  | .dir _ => true
  | _ => false

def Node.isFile : Node → Bool
  | .file _ => true
  | _ => false

abbrev Entries := List (String × Node)

namespace Entries

def find? (name : String) : Entries → Option Node
  | [] => none
  | (n, x) :: rest => if n = name then some x else find? name rest

/-- Keeps the names ascending. -/
def set (name : String) (node : Node) : Entries → Entries
  | [] => [(name, node)]
  | (n, x) :: rest =>
    if n = name then (name, node) :: rest
    else if name < n then (name, node) :: (n, x) :: rest
    else (n, x) :: set name node rest

@[simp] theorem find?_set (name n : String) (x : Node) (es : Entries) :
    find? n (set name x es) = if name = n then some x else find? n es := by
  induction es with
  | nil => rfl
  | cons e rest ih =>
    obtain ⟨m, y⟩ := e
    by_cases h : m = name
    · subst h
      by_cases hn : m = n <;> simp [set, find?, hn]
    · by_cases hl : name < m
      · simp [set, find?, h, hl]
      · by_cases hn : m = n
        · subst hn
          simp [set, find?, h, hl, Ne.symm h]
        · simp [set, find?, h, hl, hn, ih]

def drop (name : String) (es : Entries) : Entries := es.filter fun e => e.1 != name

@[simp] theorem find?_drop (name n : String) (es : Entries) :
    find? n (drop name es) = if name = n then none else find? n es := by
  induction es with
  | nil => simp [drop, find?]
  | cons e rest ih =>
    obtain ⟨m, y⟩ := e
    rw [drop] at ih ⊢
    by_cases h : m = name
    · subst h
      by_cases hn : m = n
      · subst hn
        simpa using ih
      · simp [find?, hn, ih]
    · by_cases hn : m = n
      · subst hn
        simp [find?, h, Ne.symm h]
      · simp [find?, h, hn, ih]

/-- The node at the end of a list of names; links are not followed. -/
def at? : List String → Entries → Option Node
  | [], es => some (.dir es)
  | [n], es => find? n es
  | n :: rest, es =>
    match find? n es with
    | some (.dir sub) => at? rest sub
    | _ => none

/-- Puts a node at the end of a list of names whose directories exist. -/
def put : List String → Node → Entries → Entries
  | [], _, es => es
  | [n], x, es => set n x es
  | n :: rest, x, es =>
    match find? n es with
    | some (.dir sub) => set n (.dir (put rest x sub)) es
    | _ => es

def remove : List String → Entries → Entries
  | [], es => es
  | [n], es => drop n es
  | n :: rest, es =>
    match find? n es with
    | some (.dir sub) => set n (.dir (remove rest sub)) es
    | _ => es

end Entries

end ChangeImpact
