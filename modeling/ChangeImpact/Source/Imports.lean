import ChangeImpact.Record.Basic
import ChangeImpact.Source.Piece

/-!
# Source.Imports

Import declarations and require calls on one line of a source text.

* `Binding`       — what stands between `import` and `from`.
* `importLine?`   — the binding and the specifier of a line that starts with an import.
* `requireCall?`  — the specifier of the first require call on a line.
* `symbolsOf`     — the names that the imports found on a line bring in.
* `specifierKind` — whether a specifier is a path or names a package.
-/

namespace ChangeImpact.Source

open Text

inductive Binding where
  | braces (body : List Char)
  | allAs (name : List Char)
  | single (name : List Char)
  deriving DecidableEq, Repr

def specifierKind (specifier : String) : SpecifierKind :=
  match specifier.toList with
  | '.' :: _ => .relative
  | '/' :: _ => .absolute
  | _ => .package

/-- A star, `as` and a name. -/
def allAs? (s : List Char) : Option (List Char × List Char) :=
  match s with
  | '*' :: rest =>
    match blanks? rest with
    | none => none
    | some rest =>
      match keyword? "as" rest with
      | none => none
      | some rest => word? rest
  | _ => none

def binding? (s : List Char) : Option (Binding × List Char) :=
  match s with
  | '\x7b' :: _ => (braced? s).map fun (body, rest) => (.braces body, rest)
  | '*' :: _ => (allAs? s).map fun (name, rest) => (.allAs name, rest)
  | _ => (word? s).map fun (name, rest) => (.single name, rest)

/-- Blanks and `from`. -/
def from? (s : List Char) : Option (List Char) :=
  match blanks? s with
  | some rest => after? "from".toList rest
  | none => none

def importLine? (line : List Char) : Option (Binding × List Char) :=
  match keyword? "import" line with
  | none => none
  | some rest =>
    match binding? rest with
    | none => none
    | some (b, rest) =>
      match from? rest with
      | none => none
      | some rest =>
        match blanks? rest with
        | none => none
        | some rest =>
          match quoted? rest with
          | none => none
          | some (specifier, _) => some (b, specifier)

/-- A require call at the front of a text. -/
def requireHere? (s : List Char) : Option (List Char) :=
  match after? "require(".toList s with
  | none => none
  | some rest =>
    match quoted? rest with
    | some (specifier, ')' :: _) => some specifier
    | _ => none

def requireCall? (line : List Char) : Option (List Char) := firstMatch requireHere? line

/-- An import at the front of a text whose binding `read` accepts. -/
def importedHere? (read : List Char → Option (List Char × List Char)) (s : List Char) :
    Option (List Char) :=
  match keyword? "import" s with
  | none => none
  | some rest =>
    match read rest with
    | none => none
    | some (found, rest) => (from? rest).map fun _ => found

/-- Braces that are not empty. -/
def filledBraces? (s : List Char) : Option (List Char × List Char) :=
  match braced? s with
  | some ([], _) => none
  | r => r

/-- The items between commas without blanks around them; items of blanks alone are left out. -/
def listedNames (body : List Char) : List String :=
  (((splitOn ',' body).map strip).filter fun item => !item.isEmpty).map .ofList

/-- Each kind of binding is looked for on the whole line. A single name counts only where no
opening brace stands on the line. -/
def symbolsOf (line : List Char) : List String :=
  let listed := ((firstMatch (importedHere? filledBraces?) line).map listedNames).getD []
  let single :=
    if line.contains '\x7b' then []
    else ((firstMatch (importedHere? word?) line).map fun w => [String.ofList w]).getD []
  let all := ((firstMatch (importedHere? allAs?) line).map fun w => [String.ofList w]).getD []
  listed ++ single ++ all

/-- The edges of one line, which has no blanks at its ends: the import that it starts with and
the first require call on it. -/
def lineImports (path : String) (number : Nat) (line : List Char) : List ImportEdge :=
  let declared :=
    match importLine? line with
    | some (_, specifier) =>
      let specifier := String.ofList specifier
      [{ fromPath := path, specifier, kind := specifierKind specifier, line := number,
         symbols := symbolsOf line }]
    | none => []
  let required :=
    match requireCall? line with
    | some specifier =>
      let specifier := String.ofList specifier
      [{ fromPath := path, specifier, kind := specifierKind specifier, line := number }]
    | none => []
  declared ++ required

end ChangeImpact.Source
