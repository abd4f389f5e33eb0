import ChangeImpact.Document.TomlString
import ChangeImpact.Text.Blank
import ChangeImpact.Text.Word

/-!
# Document.TomlKey

What stands around the values of a TOML text: blanks, comments and keys. Both kinds of key have
one part or more, separated by points, and a part may be in quotes.

* `Toml.name?` — the name of a table.
* `Toml.key?`  — the key of an assignment.
-/

namespace ChangeImpact.Toml

def isSpace (c : Char) : Bool := c = ' ' || c = '\t'

def skipSpace (s : List Char) : List Char := s.dropWhile isSpace

/-- Leaves out a comment, up to the end of its line. -/
def skipComment (s : List Char) : List Char :=
  match s with
  | '#' :: rest => rest.dropWhile (· != '\n')
  | s => s

/-- Leaves out blanks, line ends and comments. -/
def skipLines : Nat → List Char → List Char
  | 0, s => s
  | fuel + 1, s =>
    match skipComment (skipSpace s) with
    | '\n' :: rest => skipLines fuel rest
    | s => s

def isKeyChar (c : Char) : Bool := Text.isWordChar c || c = '-'

def isNameChar (c : Char) : Bool := c.isAlphanum || c = '_' || c = '-'

/-- The characters in single quotes after the opening one, and what follows the closing one. -/
def literalBody? (s : List Char) : Option (List Char × List Char) :=
  let body := s.takeWhile fun c => c != '\'' && c != '\n'
  match s.drop body.length with
  | '\'' :: rest => some (body, rest)
  | _ => none

def bare? (allowed : Char → Bool) (s : List Char) : Option (String × List Char) :=
  match s.takeWhile allowed with
  | [] => none
  | cs => some (.ofList cs, s.drop cs.length)

/-- One part of the name of a table. Escapes in quotes stay as they are. -/
def namePart? : List Char → Option (String × List Char)
  | '"' :: rest => (basicBody? rest).map fun (cs, rest) => (.ofList cs, rest)
  | '\'' :: rest => (literalBody? rest).map fun (cs, rest) => (.ofList cs, rest)
  | s => bare? isNameChar s

/-- One part of the key of an assignment. -/
def keyPart? : List Char → Option (String × List Char)
  | '"' :: rest =>
    (basicBody? rest).bind fun (cs, rest) =>
      (decodeQuoted '"' ('"' :: cs ++ ['"'])).toOption.map fun cs => (.ofList cs, rest)
  | '\'' :: rest => (literalBody? rest).map fun (cs, rest) => (.ofList cs, rest)
  | s => bare? isKeyChar s

/-- A character that no key starts with. -/
def isMarkup (c : Char) : Bool := isSpace c || "\n=.#[]\x7b\x7d".toList.contains c

/-- The first part of a key may start with a character of any other kind, such as a byte order
mark. Blanks around it are left out. -/
def firstPart? (s : List Char) : Option (String × List Char) :=
  match s with
  | [] => none
  | c :: cs =>
    if c = '"' || c = '\'' then keyPart? s
    else if isMarkup c then none
    else
      let part := c :: cs.takeWhile isKeyChar
      match Text.strip part with
      | [] => none
      | key => some (.ofList key, s.drop part.length)

/-- Parts separated by points. -/
def parts? (part? : List Char → Option (String × List Char)) :
    Nat → List Char → Option (List String × List Char)
  | 0, _ => none
  | fuel + 1, s =>
    match part? s with
    | none => none
    | some (part, rest) =>
      match skipSpace rest with
      | '.' :: rest =>
        (parts? part? fuel (skipSpace rest)).map fun (parts, rest) => (part :: parts, rest)
      | rest => some ([part], rest)

/-- The name of a table. -/
def name? (s : List Char) : Option (List String × List Char) := parts? namePart? (s.length + 1) s

/-- The key of an assignment. -/
def key? (s : List Char) : Option (List String × List Char) :=
  match firstPart? s with
  | none => none
  | some (part, rest) =>
    match skipSpace rest with
    | '.' :: rest =>
      (parts? keyPart? (rest.length + 1) (skipSpace rest)).map fun (parts, rest) =>
        (part :: parts, rest)
    | rest => some ([part], rest)

end ChangeImpact.Toml
