import ChangeImpact.Document.TomlValue

/-!
# Document.TomlReader

Reading TOML: tables, texts, numbers, truth values and arrays of one kind of item.

* `Toml.statements?` — the table headers and assignments of a text, in order. Their values are
  still as written.
* `Toml.parse`       — the table that the statements make up. A text with a mistake anywhere, a
  repeated key or a repeated table has none.
-/

namespace ChangeImpact.Toml

inductive Statement where
  | table (path : List String)
  | arrayTable (path : List String)
  | assign (path : List String) (source : List Char)
  /-- A header with a mistake, which counts only when all before it has been read. -/
  | malformed

/-- Nothing but blanks and a comment is left on the line. -/
def lineEnd? (s : List Char) : Option (List Char) :=
  match skipComment (skipSpace s) with
  | [] => some []
  | '\n' :: rest => some rest
  | _ => none

def header? (s : List Char) : Option (Statement × List Char) :=
  match s with
  | '[' :: '[' :: rest =>
    match name? (skipSpace rest) with
    | some (path, rest) =>
      match skipSpace rest with
      | ']' :: ']' :: rest => (lineEnd? rest).map fun rest => (.arrayTable path, rest)
      | _ => none
    | none => none
  | '[' :: rest =>
    match name? (skipSpace rest) with
    | some (path, rest) =>
      match skipSpace rest with
      | ']' :: rest => (lineEnd? rest).map fun rest => (.table path, rest)
      | _ => none
    | none => none
  | _ => none

def statement? (s : List Char) : Option (Statement × List Char) :=
  if s.head? = some '[' then
    some ((header? s).getD (.malformed, (s.dropWhile (· != '\n')).drop 1))
  else
    match assignment? s with
    | some (path, rest) =>
      (source? {} rest).map fun (source, rest) => (.assign path source, rest)
    | none => none

def statementsFrom? : Nat → List Char → Option (List Statement)
  | 0, _ => none
  | fuel + 1, s =>
    match skipLines s.length s with
    | [] => some []
    | s =>
      match statement? s with
      | none => none
      | some (st, rest) => (statementsFrom? fuel rest).map (st :: ·)

def statements? (text : String) : Option (List Statement) :=
  statementsFrom? (text.length + 1) text.toList

/-- A table under construction: the table that assignments go to, and the tables that so far were
only opened on the way to others. -/
structure Draft where
  fields : Table := []
  current : List String := []
  implied : List (List String) := []

/-- Puts a value where assignments go. -/
def Draft.assign? (d : Draft) (path : List String) (v : Value) : Option Draft :=
  (assignAt (d.current ++ path) v d.fields).map fun fields => { d with fields }

def Draft.openTable? (d : Draft) (path : List String) : Option Draft :=
  match lookup path d.fields with
  | some (.object _) =>
    if d.implied.contains path then
      some { d with current := path, implied := d.implied.filter (· != path) }
    else none
  | some _ => none
  | none =>
    let opened := (above path).filter fun p => (lookup p d.fields).isNone
    (assignAt path (.object []) d.fields).map fun fields =>
      { fields, current := path, implied := opened ++ d.implied }

def Draft.openArrayTable? (d : Draft) (path : List String) : Option Draft :=
  match lookup path d.fields with
  | some (.list _) => (appendAt path d.fields).map fun fields => { d with fields, current := path }
  | some _ => none
  | none =>
    let opened := (above path).filter fun p => (lookup p d.fields).isNone
    (assignAt path (.list [.object []]) d.fields).map fun fields =>
      { fields, current := path, implied := opened ++ d.implied }

/-- A statement with a value reads it first. -/
def Draft.apply (d : Draft) (s : Statement) : Except Failure Draft :=
  let orBad (next : Option Draft) : Except Failure Draft :=
    match next with
    | some d => .ok d
    | none => .error .badToml
  match s with
  | .assign path source =>
    match assigned source with
    | .error e => .error e
    | .ok v => orBad (d.assign? path v)
  | .table path => orBad (d.openTable? path)
  | .arrayTable path => orBad (d.openArrayTable? path)
  | .malformed => .error .badToml

def Draft.applyAll : Draft → List Statement → Except Failure Draft
  | d, [] => .ok d
  | d, s :: rest =>
    match d.apply s with
    | .error e => .error e
    | .ok d => d.applyAll rest

def parse (text : String) : Except Failure Table :=
  match statements? text with
  | none => .error .badToml
  | some statements => (Draft.applyAll {} statements).map (·.fields)

end ChangeImpact.Toml
